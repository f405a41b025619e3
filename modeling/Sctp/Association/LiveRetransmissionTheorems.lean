import Sctp.Association.ReleaseOnceTheorems
import Sctp.Association.SkipPointTheorems

/-!
# Data that is abandoned when it is sent again

The T3-rtx timeout marks what is neither acknowledged nor abandoned. `get_data_packets_to_retransmit`
goes by the mark alone, so what has been abandoned since is sent once more, also if the loop itself
has just given the message up with an earlier fragment. The fast retransmission looks for itself.
-/

namespace Sctp

namespace AssociationInternal

variable {a b : AssociationInternal}

/-! ## What is selected -/

/-- What the loop of `get_data_packets_to_retransmit` selects: each chunk with the flags of that
moment. -/
def retransmitSelects (now : ℕ) (awnd : U32) (a : AssociationInternal) (bytesToSend : ℕ)
    (first : Bool) : List U32 → List (ChunkPayloadData × SharedFlags)
  | [] => []
  | tsn :: tsns =>
    match a.inflightQueue.get tsn with
    | none => []
    | some c =>
      if !c.retransmit then
        retransmitSelects now awnd a bytesToSend false tsns
      else
        let probe := first && a.rwnd < BitVec.ofNat 32 c.userData.length
        if !probe && bytesToSend + c.userData.length > awnd.toNat then
          []
        else if probe then
          [(c, a.flags)]
        else
          let (b, _) := a.resend now tsn fun c =>
            { c with retransmit := false, nsent := c.nsent + 1 }
          (c, a.flags) ::
            retransmitSelects now awnd b (bytesToSend + c.userData.length) false tsns

/-- The same for the loop of `gather_outbound_fast_retransmission_packets`. -/
def fastSelects (now : ℕ) (a : AssociationInternal) (fastRetransSize : U32) :
    List U32 → List (ChunkPayloadData × SharedFlags)
  | [] => []
  | tsn :: tsns =>
    match a.inflightQueue.get tsn with
    | none => []
    | some c =>
      if c.acked || c.isAbandoned a.flags || c.nsent > 1 || c.missIndicator < 3 then
        fastSelects now a fastRetransSize tsns
      else
        let dataChunkSize := dataChunkHeaderSize + BitVec.ofNat 32 c.userData.length
        if a.mtu < fastRetransSize + dataChunkSize then
          []
        else
          let (b, _) := a.resend now tsn fun c => { c with nsent := c.nsent + 1 }
          (c, a.flags) :: fastSelects now b (fastRetransSize + dataChunkSize) tsns

/-- What `retransmit_from` sends is what it selects, marked as sent once more. -/
theorem retransmitFrom_sends (now : ℕ) (awnd : U32) (a : AssociationInternal) (bytesToSend : ℕ)
    (chunks : List ChunkPayloadData) (first : Bool) (tsns : List U32) :
    (retransmitFrom now awnd a bytesToSend chunks first tsns).2 =
      chunks ++ (retransmitSelects now awnd a bytesToSend first tsns).map fun s =>
        { s.1 with retransmit := false, nsent := s.1.nsent + 1 } := by
  induction tsns generalizing a bytesToSend chunks first with
  | nil => simp [retransmitFrom, retransmitSelects]
  | cons tsn tsns ih =>
    rw [retransmitFrom, retransmitSelects]
    cases hget : a.inflightQueue.get tsn with
    | none => simp
    | some c =>
      dsimp only
      have hsent := resend_sent hget now fun c =>
        { c with retransmit := false, nsent := c.nsent + 1 }
      rw [hsent]
      split_ifs
      · exact ih a bytesToSend chunks false
      · simp
      · simp
      · rw [ih, List.map_cons, Option.toList_some, List.append_assoc]
        rfl

/-- What the fast retransmission sends is what it selects. -/
theorem fastRetransmitFrom_sends (now : ℕ) (a : AssociationInternal) (fastRetransSize : U32)
    (toSend : List Chunk) (tsns : List U32) :
    (fastRetransmitFrom now a fastRetransSize toSend tsns).2 =
      toSend ++ (fastSelects now a fastRetransSize tsns).map fun s =>
        .payloadData { s.1 with nsent := s.1.nsent + 1 } := by
  induction tsns generalizing a fastRetransSize toSend with
  | nil => simp [fastRetransmitFrom, fastSelects]
  | cons tsn tsns ih =>
    rw [fastRetransmitFrom, fastSelects]
    cases hget : a.inflightQueue.get tsn with
    | none => simp
    | some c =>
      dsimp only
      rw [resend_sent hget now fun c => { c with nsent := c.nsent + 1 }]
      split_ifs
      · exact ih a fastRetransSize toSend
      · simp
      · rw [ih, List.map_cons, Option.toList_some, List.map_singleton, List.append_assoc]
        rfl

/-- What `get_data_packets_to_retransmit` selects. -/
def selectsToRetransmit (a : AssociationInternal) (now : ℕ) :
    List (ChunkPayloadData × SharedFlags) :=
  retransmitSelects now (cmpMin a.cwnd a.rwnd) a 0 true
    (a.inflightQueue.tsnsFrom (a.cumulativeTsnAckPoint + 1))

/-- What `gather_outbound_fast_retransmission_packets` selects. -/
def selectsFast (a : AssociationInternal) (now : ℕ) : List (ChunkPayloadData × SharedFlags) :=
  if a.willRetransmitFast then
    fastSelects now { a with willRetransmitFast := false } commonHeaderSize
      (a.inflightQueue.tsnsFrom (a.cumulativeTsnAckPoint + 1))
  else
    []

/-- What `gather_outbound` selects to be sent again. -/
def selectsAgain (a : AssociationInternal) (now : ℕ) : List (ChunkPayloadData × SharedFlags) :=
  let a := { a with controlQueue := [] }
  let (b, _) := a.getDataPacketsToRetransmit now
  match a.state with
  | .established =>
    a.selectsToRetransmit now ++ (b.gatherOutboundDataAndReconfigPackets now).1.selectsFast now
  | .shutdownPending | .shutdownSent | .shutdownReceived =>
    a.selectsToRetransmit now ++ b.selectsFast now
  | _ => []

/-- Whatever the operation sends again is neither acknowledged nor abandoned when it is
selected. -/
def SelectsLive (a : AssociationInternal) : SenderOp → Prop
  | .gather now => ∀ s ∈ a.selectsAgain now, s.1.acked = false ∧ s.1.isAbandoned s.2 = false
  | _ => True

instance (a : AssociationInternal) (op : SenderOp) : Decidable (a.SelectsLive op) :=
  match op with
  | .gather now => inferInstanceAs (Decidable (∀ s ∈ a.selectsAgain now, _ ∧ _))
  | .openStream .. | .setReliabilityParams .. | .write .. | .shutdownStream .. | .push _ | .t3Rtx
  | .sack .. | .shutdownChunk | .shutdown => isTrue trivial

/-! ## What is due -/

/-- `check_partial_reliability_status` gives the message of the chunk up. -/
def givesUp (a : AssociationInternal) (now : ℕ) (c : ChunkPayloadData) : Bool :=
  a.useForwardTsn && c.payloadType != .dcep && (a.stream? c.streamIdentifier).any fun s =>
    if s.reliabilityType = .rexmit then
      c.nsent ≥ s.reliabilityValue
    else
      s.reliabilityType = .timed && c.since ≤ now &&
        BitVec.ofNat 32 ((now - c.since) / 1000000) ≥ s.reliabilityValue

/-- The flags after the chunks have been checked, each as one that is sent once more. -/
def flagsAfter (a : AssociationInternal) (now : ℕ) (flags : SharedFlags)
    (cs : List ChunkPayloadData) : SharedFlags :=
  cs.foldl (fun flags c =>
    if a.givesUp now { c with nsent := c.nsent + 1 } then c.setAbandoned flags true else flags) flags

/-- The chunks under the TSNs that are marked for retransmission. -/
def marked (a : AssociationInternal) (tsns : List U32) : List ChunkPayloadData :=
  (tsns.filterMap a.inflightQueue.get).filter (·.retransmit)

/-- Those from the chunk behind the cumulative TSN on. -/
def due (a : AssociationInternal) : List ChunkPayloadData :=
  a.marked (a.inflightQueue.tsnsFrom (a.cumulativeTsnAckPoint + 1))

/-- The first chunk in flight is due and does not fit into the peer's window. -/
def probes (a : AssociationInternal) : Bool :=
  (a.inflightQueue.get (a.cumulativeTsnAckPoint + 1)).any fun c =>
    c.retransmit && a.rwnd < BitVec.ofNat 32 c.userData.length

/-- The windows let so many chunks out. -/
def Admits (a : AssociationInternal) (cs : List ChunkPayloadData) : Prop :=
  if a.probes then cs.length ≤ 1
  else (cs.map (·.userData.length)).sum ≤ (cmpMin a.cwnd a.rwnd).toNat

instance (a : AssociationInternal) (cs : List ChunkPayloadData) : Decidable (a.Admits cs) :=
  inferInstanceAs (Decidable (ite (a.probes = true) (cs.length ≤ 1) (_ ≤ _)))

/-- No chunk that the windows let out is abandoned, by the check of a chunk before it in the
same pass neither. -/
def DueLive (a : AssociationInternal) (now : ℕ) : Prop :=
  ∀ j : Fin a.due.length, a.Admits (a.due.take (j + 1)) →
    (a.due.get j).isAbandoned (a.flagsAfter now a.flags (a.due.take j)) = false

instance (a : AssociationInternal) (now : ℕ) : Decidable (a.DueLive now) :=
  inferInstanceAs (Decidable (∀ _ : Fin _, _ → _))

/-- The states in which data is sent again. -/
def sendsAgain (a : AssociationInternal) : Bool :=
  a.state = .established || a.state = .shutdownPending || a.state = .shutdownSent ||
    a.state = .shutdownReceived

/-- Where the operation sends data again, none of it has been abandoned meanwhile. -/
def RetransmitsLive (a : AssociationInternal) : SenderOp → Prop
  | .gather now => a.sendsAgain = true → a.DueLive now
  | _ => True

instance (a : AssociationInternal) (op : SenderOp) : Decidable (a.RetransmitsLive op) :=
  match op with
  | .gather now => inferInstanceAs (Decidable (a.sendsAgain = true → a.DueLive now))
  | .openStream .. | .setReliabilityParams .. | .write .. | .shutdownStream .. | .push _ | .t3Rtx
  | .sack .. | .shutdownChunk | .shutdown => isTrue trivial

/-! ## The check of a chunk -/

/-- The partial reliability policy gives up the message of the chunk or does nothing. -/
theorem checkPartialReliabilityStatus_of_givesUp (a : AssociationInternal) (now : ℕ)
    (c : ChunkPayloadData) :
    a.checkPartialReliabilityStatus now c =
      if a.givesUp now c then { a with flags := c.setAbandoned a.flags true } else a := by
  unfold checkPartialReliabilityStatus givesUp
  cases hforward : a.useForwardTsn with
  | false => simp
  | true =>
    by_cases hdcep : c.payloadType = .dcep
    · simp [hdcep]
    · cases hstream : a.stream? c.streamIdentifier with
      | none => simp [hdcep]
      | some s =>
        by_cases hrexmit : s.reliabilityType = .rexmit
        · simp [hdcep, hrexmit]
        · by_cases htimed : s.reliabilityType = .timed
          · simp [hdcep, htimed]
          · simp [hdcep, hrexmit, htimed]

theorem givesUp_resend (a : AssociationInternal) (now : ℕ) (tsn : U32)
    (f : ChunkPayloadData → ChunkPayloadData) : (a.resend now tsn f).1.givesUp = a.givesUp :=
  resend_frame (f := givesUp) (fun _ _ _ => rfl) a now tsn f

/-- Sending a chunk again may give up its message, and changes no other flag. -/
theorem flags_resend {tsn : U32} {c : ChunkPayloadData} (hget : a.inflightQueue.get tsn = some c)
    (now : ℕ) (f : ChunkPayloadData → ChunkPayloadData) :
    (a.resend now tsn f).1.flags =
      if a.givesUp now (f c) then (f c).setAbandoned a.flags true else a.flags := by
  have hnew : (a.inflightQueue.getMut tsn f).get tsn = some (f c) := by
    rw [PayloadQueue.get_getMut_self, hget]
    rfl
  unfold resend
  dsimp only
  rw [hnew]
  dsimp only
  rw [checkPartialReliabilityStatus_of_givesUp]
  show (if a.givesUp now (f c) then _ else _ : AssociationInternal).flags = _
  split_ifs
  · rfl
  · rfl

/-- Sending a chunk again leaves the others as they are. -/
theorem get_resend (a : AssociationInternal) (now : ℕ) {tsn t : U32} (ht : t ≠ tsn)
    (f : ChunkPayloadData → ChunkPayloadData) :
    (a.resend now tsn f).1.inflightQueue.get t = a.inflightQueue.get t := by
  have hother : (a.inflightQueue.getMut tsn f).get t = a.inflightQueue.get t :=
    AssocMap.lookup_modify_ne ht f a.inflightQueue.chunkMap
  unfold resend
  dsimp only
  split
  · exact hother
  · rename_i c _
    rcases checkPartialReliabilityStatus_cases
      { a with inflightQueue := a.inflightQueue.getMut tsn f } now c with heq | heq
    · rw [heq]
      exact hother
    · rw [heq]
      exact hother

/-! ## The loops -/

/-- Of the chunks `cs`, sent one after the other, none is abandoned that the window lets out. -/
def LiveInTurn (a : AssociationInternal) (now : ℕ) (awnd : U32) (bytes : ℕ) (flags : SharedFlags)
    (cs : List ChunkPayloadData) : Prop :=
  ∀ j : Fin cs.length, bytes + ((cs.take (j + 1)).map (·.userData.length)).sum ≤ awnd.toNat →
    (cs.get j).isAbandoned (a.flagsAfter now flags (cs.take j)) = false

/-- The chunks in turn are live one by one, with the flags the ones before have left. -/
theorem liveInTurn_cons (a : AssociationInternal) (now : ℕ) (awnd : U32) (bytes : ℕ)
    (flags : SharedFlags) (c : ChunkPayloadData) (cs : List ChunkPayloadData) :
    a.LiveInTurn now awnd bytes flags (c :: cs) ↔
      (bytes + c.userData.length ≤ awnd.toNat → c.isAbandoned flags = false ∧
        a.LiveInTurn now awnd (bytes + c.userData.length) (a.flagsAfter now flags [c]) cs) := by
  unfold LiveInTurn
  rw [show (∀ j : Fin (c :: cs).length, _) ↔ ∀ j : Fin (cs.length + 1), _ from Iff.rfl,
    Fin.forall_fin_succ]
  have hfirst : bytes + (((c :: cs).take (0 + 1)).map (·.userData.length)).sum =
      bytes + c.userData.length := by simp
  have hlater : ∀ j : ℕ, bytes + (((c :: cs).take (j + 1 + 1)).map (·.userData.length)).sum =
      bytes + c.userData.length + ((cs.take (j + 1)).map (·.userData.length)).sum := by
    intro j
    rw [List.take_succ_cons, List.map_cons, List.sum_cons, Nat.add_assoc]
  constructor
  · rintro ⟨hc, hcs⟩ hfits
    refine ⟨hc (hfirst ▸ hfits), ?_⟩
    intro j hj
    refine hcs j ?_
    rw [← hlater] at hj
    exact hj
  · intro h
    refine ⟨?_, ?_⟩
    · intro hfits
      exact (h (hfirst ▸ hfits)).1
    · intro j hj
      have hj' : bytes + (((c :: cs).take (j + 1 + 1)).map (·.userData.length)).sum ≤ awnd.toNat := hj
      rw [hlater] at hj'
      exact (h (by omega)).2 j hj'

/-- Only the policy of the streams matters. -/
theorem LiveInTurn.congr (h : b.givesUp = a.givesUp) (now : ℕ) (awnd : U32) (bytes : ℕ)
    (flags : SharedFlags) (cs : List ChunkPayloadData) :
    b.LiveInTurn now awnd bytes flags cs ↔ a.LiveInTurn now awnd bytes flags cs := by
  unfold LiveInTurn flagsAfter
  rw [h]

/-- The marked chunks from a list of TSNs on. -/
theorem marked_cons {tsn : U32} {c : ChunkPayloadData} (hget : a.inflightQueue.get tsn = some c)
    (tsns : List U32) :
    a.marked (tsn :: tsns) = if c.retransmit then c :: a.marked tsns else a.marked tsns := by
  unfold marked
  rw [List.filterMap_cons_some hget, List.filter_cons]

/-- Sending one chunk again does not change the marks of the others. -/
theorem marked_resend {now : ℕ} {tsn : U32} {tsns : List U32} (htsn : tsn ∉ tsns)
    (f : ChunkPayloadData → ChunkPayloadData) :
    (a.resend now tsn f).1.marked tsns = a.marked tsns := by
  unfold marked
  rw [List.filterMap_congr]
  intro t ht
  refine get_resend a now ?_ f
  rintro rfl
  exact htsn ht

/-- **What the loop selects** is what is marked, one after the other, as long as it fits. -/
theorem retransmitSelects_live {now : ℕ} {awnd : U32} {bytes : ℕ} {tsns : List U32}
    (hnodup : tsns.Nodup) (hin : ∀ t ∈ tsns, ∃ c, a.inflightQueue.get t = some c) :
    (∀ s ∈ retransmitSelects now awnd a bytes false tsns, s.1.isAbandoned s.2 = false) ↔
      a.LiveInTurn now awnd bytes a.flags (a.marked tsns) := by
  induction tsns generalizing a bytes with
  | nil =>
    constructor
    · exact fun _ j => j.elim0
    · exact fun _ s hs => absurd hs List.not_mem_nil
  | cons tsn tsns ih =>
    obtain ⟨htsn, hnodup'⟩ := List.nodup_cons.mp hnodup
    obtain ⟨c, hget⟩ := hin tsn List.mem_cons_self
    have hin' : ∀ t ∈ tsns, ∃ c, a.inflightQueue.get t = some c :=
      fun t ht => hin t (List.mem_cons_of_mem tsn ht)
    rw [retransmitSelects, hget, marked_cons hget]
    dsimp only
    rw [Bool.false_and]
    by_cases hmark : c.retransmit = true
    · rw [hmark]
      simp only [Bool.not_true, Bool.false_eq_true, if_false, if_true, Bool.not_false, Bool.true_and,
        decide_eq_true_eq]
      rw [liveInTurn_cons]
      by_cases hover : bytes + c.userData.length > awnd.toNat
      · rw [if_pos hover]
        constructor
        · exact fun _ hfits => absurd hfits (by omega)
        · exact fun _ s hs => absurd hs List.not_mem_nil
      · rw [if_neg hover, List.forall_mem_cons]
        -- the rest of the loop runs with the flags as this chunk leaves them
        obtain ⟨f, hf⟩ : ∃ f : ChunkPayloadData → ChunkPayloadData,
          f = fun c => { c with retransmit := false, nsent := c.nsent + 1 } := ⟨_, rfl⟩
        rw [← hf]
        have hflags : (a.resend now tsn f).1.flags = a.flagsAfter now a.flags [c] := by
          rw [flags_resend hget, hf]
          rfl
        have hin'' : ∀ t ∈ tsns, ∃ c, (a.resend now tsn f).1.inflightQueue.get t = some c := by
          intro t ht
          have hne : t ≠ tsn := by
            rintro rfl
            exact htsn ht
          rw [get_resend a now hne f]
          exact hin' t ht
        have hrest := @ih (a.resend now tsn f).1 (bytes + c.userData.length) hnodup' hin''
        rw [LiveInTurn.congr (givesUp_resend a now tsn f), hflags, marked_resend htsn] at hrest
        rw [hrest]
        constructor
        · exact fun h _ => h
        · exact fun h => h (by omega)
    · rw [Bool.not_eq_true] at hmark
      rw [hmark]
      simp only [Bool.not_false, if_true, Bool.false_eq_true, if_false]
      exact ih hnodup' hin'

/-- The first round differs from the others by the probe only. -/
theorem retransmitSelects_first {now : ℕ} {awnd : U32} {bytes : ℕ} {tsn : U32} {tsns : List U32}
    (hprobe : ((a.inflightQueue.get tsn).any fun c =>
      c.retransmit && a.rwnd < BitVec.ofNat 32 c.userData.length) = false) :
    retransmitSelects now awnd a bytes true (tsn :: tsns) =
      retransmitSelects now awnd a bytes false (tsn :: tsns) := by
  rw [retransmitSelects, retransmitSelects]
  cases hget : a.inflightQueue.get tsn with
  | none => rfl
  | some c =>
    dsimp only
    rw [hget, Option.any_some] at hprobe
    by_cases hmark : c.retransmit = true
    · rw [hmark, Bool.true_and] at hprobe
      rw [Bool.true_and, hprobe, Bool.false_and]
    · rw [Bool.not_eq_true] at hmark
      rw [hmark]
      rfl

/-- Without a probe the window counts. -/
theorem dueLive_of_not_probes (hprobes : a.probes = false) (now : ℕ) :
    a.DueLive now ↔ a.LiveInTurn now (cmpMin a.cwnd a.rwnd) 0 a.flags a.due := by
  unfold DueLive LiveInTurn Admits
  rw [hprobes]
  simp only [Bool.false_eq_true, if_false, Nat.zero_add]

/-- A probe is one chunk. -/
theorem dueLive_of_probes (hprobes : a.probes = true) (now : ℕ) {c : ChunkPayloadData}
    {cs : List ChunkPayloadData} (hdue : a.due = c :: cs) :
    a.DueLive now ↔ c.isAbandoned a.flags = false := by
  unfold DueLive Admits
  rw [hprobes, hdue]
  constructor
  · intro h
    refine h ⟨0, Nat.succ_pos _⟩ ?_
    rw [if_pos rfl]
    simp
  · intro hc j hj
    rw [if_pos rfl, List.length_take] at hj
    have hzero : (j : ℕ) = 0 := by
      have hlt := j.isLt
      omega
    have hj0 : j = ⟨0, Nat.succ_pos _⟩ := Fin.ext hzero
    rw [hj0]
    exact hc

/-! ## One pass -/

/-- A TSN of the scan is in the queue and lies ahead of its beginning. -/
theorem mem_tsnsFromUpTo {q : PayloadQueue} {n : ℕ} {tsn t : U32} (h : t ∈ q.tsnsFromUpTo n tsn) :
    (∃ c, q.get t = some c) ∧ ∃ i < n, t = tsn.after i := by
  induction n generalizing tsn with
  | zero => cases h
  | succ n ih =>
    rw [PayloadQueue.tsnsFromUpTo] at h
    split at h
    · rename_i hmem
      rcases List.mem_cons.mp h with rfl | hlater
      · refine ⟨?_, 0, Nat.succ_pos n, (after_zero t).symm⟩
        exact Option.isSome_iff_exists.mp (AList.lookup_isSome.mpr hmem)
      · obtain ⟨hget, i, hi, heq⟩ := ih hlater
        have hnext : (tsn + 1).after i = tsn.after (i + 1) := by
          have hone : tsn + 1 = tsn.after 1 := rfl
          rw [hone, after_add, Nat.add_comm]
        exact ⟨hget, i + 1, by omega, heq.trans hnext⟩
    · cases h

/-- No TSN is scanned twice. -/
theorem nodup_tsnsFromUpTo (q : PayloadQueue) {n : ℕ} (hn : n ≤ 2 ^ 32) (tsn : U32) :
    (q.tsnsFromUpTo n tsn).Nodup := by
  induction n generalizing tsn with
  | zero => exact List.nodup_nil
  | succ n ih =>
    rw [PayloadQueue.tsnsFromUpTo]
    split
    · refine List.nodup_cons.mpr ⟨?_, ih (by omega) (tsn + 1)⟩
      intro hmem
      obtain ⟨_, i, hi, heq⟩ := mem_tsnsFromUpTo hmem
      have hnext : (tsn + 1).after i = tsn.after (i + 1) := by
        have hone : tsn + 1 = tsn.after 1 := rfl
        rw [hone, after_add, Nat.add_comm]
      have hdist := dist_after tsn (show i + 1 < 2 ^ 32 by omega)
      rw [← hnext, ← heq, Serial.dist_self] at hdist
      omega
    · exact List.nodup_nil

/-- A loop over the chunks in flight visits none twice. -/
theorem nodup_tsnsFrom (q : PayloadQueue) (tsn : U32) : (q.tsnsFrom tsn).Nodup :=
  nodup_tsnsFromUpTo q q.length_keys_le tsn

/-- The scan begins with the TSN, if it is there. -/
theorem tsnsFrom_cases (q : PayloadQueue) (tsn : U32) :
    q.tsnsFrom tsn = [] ∧ q.get tsn = none ∨ ∃ tsns, q.tsnsFrom tsn = tsn :: tsns := by
  unfold PayloadQueue.tsnsFrom
  by_cases hmem : tsn ∈ q.chunkMap
  · right
    obtain ⟨n, hn⟩ : ∃ n, q.chunkMap.keys.length = n + 1 := by
      have hpos : 0 < q.chunkMap.keys.length := List.length_pos_of_mem (AList.mem_keys.mp hmem)
      exact ⟨q.chunkMap.keys.length - 1, by omega⟩
    rw [hn, PayloadQueue.tsnsFromUpTo, if_pos hmem]
    exact ⟨_, rfl⟩
  · left
    refine ⟨?_, AList.lookup_eq_none.mpr hmem⟩
    cases q.chunkMap.keys.length with
    | zero => rfl
    | succ n => rw [PayloadQueue.tsnsFromUpTo, if_neg hmem]

/-- **When one pass selects nothing that is abandoned.** -/
theorem selectsToRetransmit_live (a : AssociationInternal) (now : ℕ) :
    (∀ s ∈ a.selectsToRetransmit now, s.1.isAbandoned s.2 = false) ↔ a.DueLive now := by
  have hnodup := nodup_tsnsFrom a.inflightQueue (a.cumulativeTsnAckPoint + 1)
  have hin : ∀ t ∈ a.inflightQueue.tsnsFrom (a.cumulativeTsnAckPoint + 1),
      ∃ c, a.inflightQueue.get t = some c := fun t ht => (mem_tsnsFromUpTo ht).1
  unfold selectsToRetransmit
  by_cases hprobes : a.probes = true
  · obtain ⟨c, hget, hc⟩ : ∃ c, a.inflightQueue.get (a.cumulativeTsnAckPoint + 1) = some c ∧
        (c.retransmit && a.rwnd < BitVec.ofNat 32 c.userData.length) = true := by
      unfold probes at hprobes
      cases hget : a.inflightQueue.get (a.cumulativeTsnAckPoint + 1) with
      | none =>
        rw [hget] at hprobes
        cases hprobes
      | some c =>
        rw [hget] at hprobes
        exact ⟨c, rfl, hprobes⟩
    obtain ⟨hmark, hclosed⟩ := Bool.and_eq_true_iff.mp hc
    rcases tsnsFrom_cases a.inflightQueue (a.cumulativeTsnAckPoint + 1) with ⟨_, hnone⟩ | ⟨tsns, heq⟩
    · rw [hget] at hnone
      cases hnone
    · have hdue : a.due = c :: a.marked tsns := by
        rw [due, heq, marked_cons hget, if_pos hmark]
      rw [dueLive_of_probes hprobes now hdue, heq, retransmitSelects, hget]
      simp [hmark, hclosed]
  · rw [Bool.not_eq_true] at hprobes
    rw [dueLive_of_not_probes hprobes, due, ← retransmitSelects_live hnodup hin]
    rcases tsnsFrom_cases a.inflightQueue (a.cumulativeTsnAckPoint + 1) with ⟨heq, _⟩ | ⟨tsns, heq⟩
    · rw [heq]
      rfl
    · rw [heq, retransmitSelects_first hprobes]

/-- The fast retransmission looks at the chunk itself. -/
theorem fastSelects_live (now : ℕ) (a : AssociationInternal) (fastRetransSize : U32)
    (tsns : List U32) :
    ∀ s ∈ fastSelects now a fastRetransSize tsns, s.1.acked = false ∧ s.1.isAbandoned s.2 = false := by
  induction tsns generalizing a fastRetransSize with
  | nil => exact fun s hs => absurd hs List.not_mem_nil
  | cons tsn tsns ih =>
    rw [fastSelects]
    cases hget : a.inflightQueue.get tsn with
    | none => exact fun s hs => absurd hs List.not_mem_nil
    | some c =>
      dsimp only
      split
      · exact ih a fastRetransSize
      · rename_i htest
        split
        · exact fun s hs => absurd hs List.not_mem_nil
        · rw [List.forall_mem_cons]
          refine ⟨?_, ih _ _⟩
          simp only [Bool.or_eq_true, not_or, Bool.not_eq_true] at htest
          exact htest.1.1

/-! ## What is acknowledged is not marked -/

/-- A chunk that is acknowledged carries no mark. -/
def Unmarked (c : ChunkPayloadData) : Prop := c.acked = true → c.retransmit = false

theorem retransmits_unmarked : Retransmits Unmarked fun _ => True where
  again _ _ _ := ⟨fun _ => rfl, trivial⟩
  fast _ hc _ := ⟨hc, trivial⟩

theorem sackKeeps_unmarked : SackKeeps (PayloadQueue.Each Unmarked) where
  pop _ t h := h.pop t
  mark _ t h := h.markAsAcked t fun _ _ _ => rfl
  miss _ t h := h.getMut (f := fun c => { c with missIndicator := c.missIndicator + 1 })
    fun c hc => ⟨rfl, (h t c hc).2⟩

/-- An acknowledged chunk is not marked, and so not selected. -/
theorem retransmitSelects_unacked (now : ℕ) (awnd : U32) (bytes : ℕ) (first : Bool)
    (tsns : List U32) (h : a.inflightQueue.Each Unmarked) :
    ∀ s ∈ retransmitSelects now awnd a bytes first tsns, s.1.acked = false := by
  induction tsns generalizing a bytes first with
  | nil => exact fun s hs => absurd hs List.not_mem_nil
  | cons tsn tsns ih =>
    rw [retransmitSelects]
    cases hget : a.inflightQueue.get tsn with
    | none => exact fun s hs => absurd hs List.not_mem_nil
    | some c =>
      dsimp only
      by_cases hmark : c.retransmit = true
      · have hacked : c.acked = false := by
          by_contra hacked
          have hno := (h tsn c hget).2 (by simpa using hacked)
          rw [hmark] at hno
          cases hno
        have hsent := (resend_each (f := fun c =>
          { c with retransmit := false, nsent := c.nsent + 1 }) now h hget rfl fun _ => rfl).1
        split_ifs
        · exact ih bytes false h
        · exact fun s hs => absurd hs List.not_mem_nil
        · simpa using hacked
        · rw [List.forall_mem_cons]
          exact ⟨hacked, ih _ _ hsent⟩
      · rw [Bool.not_eq_true] at hmark
        rw [if_pos (by rw [hmark]; rfl)]
        exact ih bytes false h

/-- What is acknowledged is unmarked, and what waits is not acknowledged. -/
structure MarksUnacked (a : AssociationInternal) : Prop where
  inflight : a.inflightQueue.Each Unmarked
  pending : a.pendingQueue.Each (·.acked = false)

theorem Fresh.marksUnacked (h : a.Fresh) : a.MarksUnacked where
  inflight := by
    rw [h.inflightQueue]
    exact PayloadQueue.Each.new
  pending := by
    rw [h.pendingQueue]
    exact PendingQueue.Each.new

/-- Gathering keeps acknowledged chunks unmarked. -/
theorem unmarked_gather (h : a.inflightQueue.Each Unmarked) (now : ℕ)
    (hunacked : ∀ c ∈ a.assigns (.gather now), c.acked = false) :
    (a.gatherOutbound now).1.inflightQueue.Each Unmarked := by
  by_cases hstate : a.state = .established
  · have hassigns : a.assigns (.gather now) = ({ a with controlQueue := [] }.popped now).2.1 :=
      if_pos hstate
    rw [hassigns] at hunacked
    obtain ⟨_, _, hgather⟩ := gatherOutbound_spec hstate now rfl
    refine (hgather (S := fun _ => True) (F := fun _ => True) retransmits_unmarked h ?_ trivial
      trivial).1
    intro c hc
    refine ⟨?_, trivial⟩
    intro hacked
    rw [hunacked c hc] at hacked
    cases hacked
  · exact (gather_each_of_ne retransmits_unmarked hstate now h).1

/-- The timeout marks only what is not acknowledged. -/
theorem unmarked_onT3RtxTimeout (h : a.inflightQueue.Each Unmarked) :
    a.onT3RtxTimeout.inflightQueue.Each Unmarked := by
  obtain ⟨flags, heq⟩ := a.inflightQueue_onT3RtxTimeout
  rw [heq]
  apply h.markAllToRetransmit
  intro c _ hno hacked
  rw [hno] at hacked
  cases hacked

/-- **One operation** marks nothing that is acknowledged. -/
theorem MarksUnacked.step (h : a.MarksUnacked) {op : SenderOp} (hop : PushesUnsent op) :
    (a.senderStep op).MarksUnacked := by
  obtain ⟨hpending, hunacked⟩ := unacked_senderStep h.pending hop
  refine ⟨?_, hpending⟩
  by_cases hcall : op.isCall = true
  · have hflight : (a.senderStep op).inflightQueue = a.inflightQueue :=
      (congrArg inflightQueue (called_senderStep hcall).frame :)
    rw [hflight]
    exact h.inflight
  · cases op with
    | gather now => exact unmarked_gather h.inflight now hunacked
    | t3Rtx => exact unmarked_onT3RtxTimeout h.inflight
    | sack now d => exact sackKeeps_unmarked.handleSack now d h.inflight
    | _ => exact absurd rfl hcall

/-! ## Runs -/

/-- Fast retransmission selects only live chunks. -/
theorem selectsFast_live (a : AssociationInternal) (now : ℕ) :
    ∀ s ∈ a.selectsFast now, s.1.acked = false ∧ s.1.isAbandoned s.2 = false := by
  unfold selectsFast
  split
  · exact fastSelects_live now _ _ _
  · exact fun s hs => absurd hs List.not_mem_nil

/-- The pass of the timeout decides, whatever the fast retransmission adds. -/
theorem selectsToRetransmit_append_live (h : a.inflightQueue.Each Unmarked) (now : ℕ)
    (b : AssociationInternal) :
    (∀ s ∈ a.selectsToRetransmit now ++ b.selectsFast now,
      s.1.acked = false ∧ s.1.isAbandoned s.2 = false) ↔ a.DueLive now := by
  rw [← selectsToRetransmit_live, List.forall_mem_append]
  constructor
  · exact fun hall s hs => (hall.1 s hs).2
  · intro hlive
    refine ⟨?_, selectsFast_live b now⟩
    intro s hs
    exact ⟨retransmitSelects_unacked _ _ _ _ _ h s hs, hlive s hs⟩

/-- **When an operation sends nothing again that is abandoned.** -/
theorem MarksUnacked.selectsLive_iff (h : a.MarksUnacked) (op : SenderOp) :
    a.SelectsLive op ↔ a.RetransmitsLive op := by
  cases op with
  | gather now =>
    show (∀ s ∈ a.selectsAgain now, _) ↔ (a.sendsAgain = true → a.DueLive now)
    have hpass : ∀ b : AssociationInternal, a.sendsAgain = true →
        ((∀ s ∈ { a with controlQueue := [] }.selectsToRetransmit now ++ b.selectsFast now,
          s.1.acked = false ∧ s.1.isAbandoned s.2 = false) ↔
            (a.sendsAgain = true → a.DueLive now)) := by
      intro b hsends
      have hdue := @selectsToRetransmit_append_live { a with controlQueue := [] } h.inflight now b
      exact hdue.trans ⟨fun hlive _ => hlive, fun hlive => hlive hsends⟩
    unfold selectsAgain
    dsimp only
    split
    · rename_i hstate
      exact hpass _ (by simp [sendsAgain, hstate])
    · rename_i hstate
      exact hpass _ (by simp [sendsAgain, hstate])
    · rename_i hstate
      exact hpass _ (by simp [sendsAgain, hstate])
    · rename_i hstate
      exact hpass _ (by simp [sendsAgain, hstate])
    · rename_i h₁ h₂ h₃ h₄
      have hquiet : a.sendsAgain = false := by
        unfold sendsAgain
        simp only [Bool.or_eq_false_iff, decide_eq_false_iff_not]
        exact ⟨⟨⟨h₁, h₂⟩, h₃⟩, h₄⟩
      constructor
      · intro _ hsends
        rw [hquiet] at hsends
        cases hsends
      · exact fun _ s hs => absurd hs List.not_mem_nil
  | _ => exact Iff.rfl

/-- **Abandoned data is sent again exactly where it is due while abandoned.** -/
theorem retransmitsLive_iff (h : a.Fresh) {ops : List SenderOp}
    (hops : Runs.Along senderStep (fun _ op => PushesUnsent op) a ops) :
    Runs.Along senderStep SelectsLive a ops ↔ Runs.Along senderStep RetransmitsLive a ops :=
  Runs.along_iff_of_invariant (fun _ _ hop _ hb => hb.step hop) (fun _ op _ hb => hb.selectsLive_iff op)
    h.marksUnacked hops

/-- A message of two fragments is sent, the timer fires, and it is sent again; the stream gives
messages up that have been sent `relVal` times. -/
def fragmentedRun (relVal : U32) : List SenderOp :=
  [.openStream 1 .binary, .setReliabilityParams 0 false .rexmit relVal,
    .write 0 (List.replicate 1201 0) .binary, .gather 0, .t3Rtx, .gather 1]

/-- After the second time both fragments still count. -/
theorem retransmitsLive_fragmentedRun :
    Runs.Along senderStep RetransmitsLive justEstablished (fragmentedRun 3) ∧
      Runs.Along senderStep SelectsLive justEstablished (fragmentedRun 3) :=
  ⟨by decide +kernel,
    (retransmitsLive_iff justEstablished_fresh (by decide +kernel)).mpr (by decide +kernel)⟩

/-- The first fragment gives the message up when it is sent again, and the second follows. -/
theorem not_selectsLive_fragmentedRun :
    ¬ Runs.Along senderStep SelectsLive justEstablished (fragmentedRun 2) := by
  decide +kernel

end AssociationInternal

end Sctp
