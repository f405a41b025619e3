import Sctp.Association.SkipPointTheorems
import Sctp.Association.GapReportsTheorems
import Sctp.Association.FastRecoveryTheorems

/-!
# The same SACK twice

The first time a SACK is taken everything it reports is acknowledged, the ack point moves to its
cumulative TSN and the advanced point as far as it goes. The second time nothing is left to do.
-/

namespace Sctp

namespace AssociationInternal

open PayloadQueue

variable {a a' b : AssociationInternal} {now : ℕ} {d : ChunkSelectiveAck}

/-- `handle_sack` answers `Ok`, and the assertion in `len`, to which it comes on the way, holds. -/
def TakesSack (a : AssociationInternal) (now : ℕ) (d : ChunkSelectiveAck) : Prop :=
  (a.handleSack now d).2.isOk = true ∧
    (a.readsSack d = true → (a.handleSack now d).1.inflightQueue.LengthAgrees)

instance (a : AssociationInternal) (now : ℕ) (d : ChunkSelectiveAck) :
    Decidable (a.TakesSack now d) := inferInstanceAs (Decidable (_ ∧ _))

/-! ## What the first time leaves -/

theorem get_pop_of_ne {q : PayloadQueue} {t t' : U32} (h : t' ≠ t) :
    (q.pop t).1.get t' = q.get t' := by
  unfold PayloadQueue.pop
  split
  · rfl
  · split
    · split
      · exact AList.lookup_erase_ne h
      · rfl
    · rfl

theorem ne_of_dist_pos {i t : U32} (h : 0 < Serial.dist i t) : t ≠ i := by
  intro heq
  rw [heq, Serial.dist_self] at h
  omega

/-- The loop over the acknowledged chunks leaves alone what lies behind them. -/
theorem get_popAcked (now : ℕ) {e i t : U32} (a : AssociationInternal) (bytes : BytesAcked)
    (h : sna32lte i e = true → Serial.dist i e < Serial.dist i t) :
    (popAcked now e i a bytes).1.inflightQueue.get t = a.inflightQueue.get t := by
  induction i, a, bytes using popAcked.induct now e with
  | case1 i a bytes hlte q hpop =>
    have hne : t ≠ i := ne_of_dist_pos (Nat.zero_lt_of_lt (h hlte))
    have hget := get_pop_of_ne (q := a.inflightQueue) hne
    rw [hpop] at hget
    rw [popAcked, if_pos hlte, hpop]
    exact hget
  | case2 i a bytes hlte q c hpop a₁ err hack =>
    have hne : t ≠ i := ne_of_dist_pos (Nat.zero_lt_of_lt (h hlte))
    have hget := get_pop_of_ne (q := a.inflightQueue) hne
    rw [hpop] at hget
    have hflight := (quiet_ackPopped { a with inflightQueue := q } now i c bytes).inflightQueue
    rw [hack] at hflight
    rw [popAcked, if_pos hlte, hpop]
    dsimp only
    rw [hack]
    show a₁.inflightQueue.get t = _
    rw [hflight]
    exact hget
  | case3 i a bytes hlte q c hpop a₁ bytes₁ hack ih =>
    have hne : t ≠ i := ne_of_dist_pos (Nat.zero_lt_of_lt (h hlte))
    have hget := get_pop_of_ne (q := a.inflightQueue) hne
    rw [hpop] at hget
    have hflight := (quiet_ackPopped { a with inflightQueue := q } now i c bytes).inflightQueue
    rw [hack] at hflight
    rw [popAcked, if_pos hlte, hpop]
    dsimp only
    rw [hack]
    refine (ih ?_).trans ?_
    · intro hmore
      have hlt := h hlte
      have hdist := (sna32lte_iff i e).mp hlte
      rw [sna32lte_succ_iff hdist] at hmore
      have hend := dist_succ_of_pos hmore
      have htsn : Serial.dist (i + 1) t + 1 = Serial.dist i t := dist_succ_of_pos (by omega)
      omega
    · rw [(quiet_exitFastRecovery a₁ c).inflightQueue]
      show a₁.inflightQueue.get t = _
      rw [hflight]
      exact hget
  | case4 i a bytes hlte => rw [popAcked, if_neg hlte]

/-- What the gap blocks report is acknowledged in the end, as is what was before. -/
theorem acked_ackGaps {bytes : BytesAcked} {htna : U32} {tsns : List U32}
    {r : BytesAcked × U32} (h : ackGaps now a bytes htna tsns = (a', .ok r)) (t : U32)
    (ht : t ∈ tsns ∨ ∃ c, a.inflightQueue.get t = some c ∧ c.acked = true) :
    ∃ c, a'.inflightQueue.get t = some c ∧ c.acked = true := by
  induction tsns generalizing a bytes htna with
  | nil =>
    rw [ackGaps] at h
    cases h
    exact ht.resolve_left List.not_mem_nil
  | cons tsn tsns ih =>
    cases hget : a.inflightQueue.get tsn with
    | none =>
      rw [ackGaps, hget] at h
      cases h
    | some c =>
      obtain ⟨a₁, hother, ⟨c₁, hc₁, hacked₁, _⟩, hnext⟩ :=
        ackGaps_cons now a bytes htna tsns hget
      rcases hnext with ⟨_, err, herr⟩ | ⟨bytes₁, htna₁, heq⟩
      · rw [herr] at h
        cases h
      · rw [heq] at h
        refine ih h ?_
        by_cases hne : t = tsn
        · rw [hne]
          exact Or.inr ⟨c₁, hc₁, hacked₁⟩
        · rcases ht with hin | ⟨c', hc', hacked'⟩
          · exact Or.inl ((List.mem_cons.mp hin).resolve_left hne)
          · exact Or.inr ⟨c', (hother t hne).trans hc', hacked'⟩

/-- The window the SACK leaves, from what is still outstanding. -/
def windowLeft (d : ChunkSelectiveAck) (q : PayloadQueue) : U32 :=
  if BitVec.ofNat 32 q.getNumBytes ≥ d.advertisedReceiverWindowCredit then 0
  else d.advertisedReceiverWindowCredit - BitVec.ofNat 32 q.getNumBytes

theorem rwnd_applySack (hd : Serial.dist a.cumulativeTsnAckPoint d.cumulativeTsnAck < 2 ^ 31)
    (bytes : BytesAcked) : (a.applySack d bytes).rwnd = windowLeft d a.inflightQueue := by
  have hflight := (quiet_applySack hd bytes).inflightQueue
  have hsame : (a.applySack d bytes).rwnd = windowLeft d (a.applySack d bytes).inflightQueue := rfl
  rw [hsame, hflight]

theorem rwnd_processFastRetransmission (a : AssociationInternal) (cum htna : U32)
    (advanced : Bool) (h : a.rwnd = windowLeft d a.inflightQueue) :
    (a.processFastRetransmission cum htna advanced).1.rwnd =
      windowLeft d (a.processFastRetransmission cum htna advanced).1.inflightQueue := by
  refine processFastRetransmission_keeps (P := fun b => b.rwnd = windowLeft d b.inflightQueue)
    (reportMissing_keeps ?_ (fun _ _ _ hb => hb) htna) (fun _ hb => hb) a cum advanced h
  -- a count does not change how many bytes are in flight
  exact fun _ _ hb => hb

/-- The bookkeeping at the end of a SACK leaves the queue, the window and the flags. -/
theorem afterwards_kept (a : AssociationInternal) (state : AssociationState) :
    let s := a.raiseAckPoint.postprocessSack state
    s.inflightQueue = a.inflightQueue ∧ s.rwnd = a.rwnd := by
  dsimp only
  refine ⟨?_, ?_⟩
  · rw [postprocessSack_inflightQueue, (quiet_raiseAckPoint a).inflightQueue]
  · rw [postprocessSack_kept (f := rwnd) (fun _ _ _ _ _ => rfl)]
    exact raiseAckPoint_kept (f := rwnd) (fun _ _ _ => rfl) a

/-- Nothing of the SACK is left to be done, but for the points and the shutdown. -/
structure SackSettled (s : AssociationInternal) (d : ChunkSelectiveAck) : Prop where
  point : s.cumulativeTsnAckPoint = d.cumulativeTsnAck
  acked : ∀ t ∈ gapTsns d, ∃ c, s.inflightQueue.get t = some c ∧ c.acked = true
  window : s.rwnd = windowLeft d s.inflightQueue

/-- **What a SACK leaves.** -/
theorem settled_handleSack (hreads : a.readsSack d = true)
    (hok : (a.handleSack now d).2.isOk = true) : (a.handleSack now d).1.SackSettled d := by
  have hpoint := cumulativeTsnAckPoint_handleSack hreads hok
  obtain ⟨b, bytes, htna, hprocess, hnotes⟩ := handleSack_of_reads hreads hok
  obtain ⟨b₁, bytes₁, htna₁, b₂, hprocess₁, hfast, hresult⟩ := handleSack_stages hreads hok
  rw [hprocess] at hprocess₁
  cases hprocess₁
  have hframe := (processSelectiveAck_frame a now d).1
  rw [hprocess] at hframe
  have hcum : b.cumulativeTsnAckPoint = a.cumulativeTsnAckPoint :=
    (congrArg cumulativeTsnAckPoint hframe :)
  have hd : Serial.dist b.cumulativeTsnAckPoint d.cumulativeTsnAck < 2 ^ 31 := by
    rw [hcum]
    exact dist_lt_of_reads hreads
  have hflight := (quiet_applySack hd bytes).inflightQueue
  refine ⟨hpoint, ?_, ?_⟩
  · intro t ht
    unfold processSelectiveAck at hprocess
    split at hprocess
    · cases hprocess
    · obtain ⟨c, hc, hacked⟩ := acked_ackGaps hprocess t (Or.inl ht)
      have hpayload := hnotes.payloads t
      rw [hflight, hc] at hpayload
      obtain ⟨c', hc', heq⟩ := Option.map_eq_some_iff.mp hpayload
      refine ⟨c', hc', ?_⟩
      rw [← hacked]
      exact (congrArg (·.acked) heq :)
  · have hwindow := rwnd_processFastRetransmission (b.applySack d bytes) d.cumulativeTsnAck htna
      (sna32lt a.cumulativeTsnAckPoint d.cumulativeTsnAck) (by rw [rwnd_applySack hd, hflight])
    rw [hfast] at hwindow
    rw [hresult]
    obtain ⟨hqueue, hrwnd⟩ := afterwards_kept b₂ a.state
    show (b₂.raiseAckPoint.postprocessSack a.state).rwnd =
      windowLeft d (b₂.raiseAckPoint.postprocessSack a.state).inflightQueue
    rw [hqueue, hrwnd]
    exact hwindow

/-! ## The second time -/

theorem ackGaps_of_acked {s : AssociationInternal} {tsns : List U32}
    (h : ∀ t ∈ tsns, ∃ c, s.inflightQueue.get t = some c ∧ c.acked = true) (bytes : BytesAcked)
    (htna : U32) : ackGaps now s bytes htna tsns = (s, .ok (bytes, htna)) := by
  induction tsns with
  | nil => rfl
  | cons tsn tsns ih =>
    obtain ⟨c, hc, hacked⟩ := h tsn List.mem_cons_self
    rw [ackGaps, hc]
    dsimp only
    rw [if_pos hacked]
    exact ih fun t ht => h t (List.mem_cons_of_mem tsn ht)

/-- With no TSN between the ack point and `htna` no report is missing. -/
theorem processFastRetransmission_self (s : AssociationInternal) (cum : U32) :
    s.processFastRetransmission cum cum false = (s, .ok ()) := by
  have hlt : ¬ sna32lt (cum + 1) cum = true := by
    rw [sna32lt_iff, Serial.dist_comm_of_ne (a := cum) (b := cum + 1) (by bv_omega),
      show Serial.dist cum (cum + 1) = 1 from Serial.dist_add_ofNat cum (k := 1) (by decide)]
    omega
  have hnone : reportMissingBelow cum cum (cum + 1) s = (s, .ok ()) := by
    rw [reportMissingBelow, if_neg hlt]
  have hloop : ∀ maxTsn, (if !s.inFastRecovery ∨ false then
      reportMissingBelow cum (if !s.inFastRecovery then cum else maxTsn) (cum + 1) s
      else (s, .ok ())) = (s, .ok ()) := by
    intro maxTsn
    cases s.inFastRecovery with
    | false => exact hnone
    | true => rfl
  unfold processFastRetransmission
  rw [hloop]
  dsimp only
  rw [if_neg (by simp)]

theorem applySack_of_settled {s : AssociationInternal} (h : s.SackSettled d) : s.applySack d ∅ = s := by
  have hlt : ¬ sna32lt s.cumulativeTsnAckPoint d.cumulativeTsnAck = true := by
    rw [h.point, sna32lt_iff, Serial.dist_self]
    omega
  have hwindow := h.window
  unfold windowLeft at hwindow
  unfold applySack
  rw [if_neg hlt]
  show { s with rwnd := if BitVec.ofNat 32 s.inflightQueue.getNumBytes ≥
    d.advertisedReceiverWindowCredit then 0
    else d.advertisedReceiverWindowCredit - BitVec.ofNat 32 s.inflightQueue.getNumBytes } = s
  rw [← hwindow]

/-- Where nothing is left to be done, a SACK looks after the points and the shutdown. -/
theorem handleSack_of_settled {s : AssociationInternal} (h : s.SackSettled d)
    (hreads : s.readsSack d = true) :
    s.handleSack now d = (s.raiseAckPoint.postprocessSack s.state, .ok []) := by
  have hprocess : s.processSelectiveAck now d = (s, .ok (∅, d.cumulativeTsnAck)) := by
    rw [processSelectiveAck_of_popAcked (popAcked_of_acked now h.point ∅)]
    exact ackGaps_of_acked h.acked ∅ d.cumulativeTsnAck
  have hlt : sna32lt s.cumulativeTsnAckPoint d.cumulativeTsnAck = false := by
    rw [h.point, ← Bool.not_eq_true, sna32lt_iff, Serial.dist_self]
    omega
  rw [handleSack_eq_of_reads hreads, hprocess]
  dsimp only
  rw [applySack_of_settled h, hlt, processFastRetransmission_self]

/-! ## The advanced point over a SACK -/

/-- What is in flight behind the new ack point keeps its labels. -/
theorem label_processSelectiveAck {bytes : BytesAcked} {htna : U32}
    (hd : Serial.dist a.cumulativeTsnAckPoint d.cumulativeTsnAck < 2 ^ 31)
    (h : a.processSelectiveAck now d = (b, .ok (bytes, htna))) {t : U32}
    (ht : Serial.dist a.cumulativeTsnAckPoint d.cumulativeTsnAck <
      Serial.dist a.cumulativeTsnAckPoint t) :
    (b.inflightQueue.get t).map label = (a.inflightQueue.get t).map label := by
  have hpopped := get_popAcked now (e := d.cumulativeTsnAck) (i := a.cumulativeTsnAckPoint + 1)
    (t := t) a ∅ (by
      intro hmore
      rw [sna32lte_succ_iff hd] at hmore
      have hend := dist_succ_of_pos hmore
      have htsn : Serial.dist (a.cumulativeTsnAckPoint + 1) t + 1 =
        Serial.dist a.cumulativeTsnAckPoint t := dist_succ_of_pos (by omega)
      omega)
  unfold processSelectiveAck at h
  split at h
  · cases h
  · rename_i a₁ bytes₁ heq
    rw [heq] at hpopped
    have htouched := (ackGaps_touched now a₁ bytes₁ d.cumulativeTsnAck (gapTsns d)).2.1
    rw [h] at htouched
    rw [htouched.get t, hpopped]

/-- The stage before C1 to C3: what lies behind the new ack point up to the floor of the walk is
abandoned. -/
theorem floorAbandoned_of_reads (h : a.SkipsAbandoned) (hreads : a.readsSack d = true)
    (hok : (a.handleSack now d).2.isOk = true) :
    ∃ b : AssociationInternal, b.FloorAbandoned ∧ b.state = a.state ∧
      (a.handleSack now d).1 = b.raiseAckPoint.postprocessSack a.state := by
  obtain ⟨b₁, bytes, htna, b, hprocess, hfast, hresult⟩ := handleSack_stages hreads hok
  have hd := dist_lt_of_reads hreads
  obtain ⟨happly, hflight⟩ := applySack_of_processSelectiveAck hd hprocess
  have hmissing := touches_processFastRetransmission (b₁.applySack d bytes) d.cumulativeTsnAck htna
    (sna32lt a.cumulativeTsnAckPoint d.cumulativeTsnAck)
  rw [hfast] at hmissing
  have hframe₂ := hmissing.frame.trans happly
  have hcum : b.cumulativeTsnAckPoint = d.cumulativeTsnAck :=
    (congrArg cumulativeTsnAckPoint hframe₂ :)
  have hadv : b.advancedPeerTsnAckPoint = a.advancedPeerTsnAckPoint :=
    (congrArg advancedPeerTsnAckPoint hframe₂ :)
  have huse : b.useForwardTsn = a.useForwardTsn := (congrArg useForwardTsn hframe₂ :)
  have hflags : b.flags = a.flags := (congrArg flags hframe₂ :)
  have hstate : b.state = a.state := (congrArg state hframe₂ :)
  refine ⟨b, ?_, hstate, by rw [hresult]⟩
  intro huseb
  unfold ackPointFloor
  rw [hcum, hadv]
  split
  · exact AbandonedUpTo.refl _ _ _
  · rename_i hbehind
    intro t hpos hle
    -- the advanced point is no nearer to the old ack point than the new one
    have hno : Serial.dist a.cumulativeTsnAckPoint d.cumulativeTsnAck ≤
        Serial.dist a.cumulativeTsnAckPoint a.advancedPeerTsnAckPoint := by
      by_contra hlt
      have hdist : Serial.dist a.advancedPeerTsnAckPoint d.cumulativeTsnAck =
          Serial.dist a.cumulativeTsnAckPoint d.cumulativeTsnAck -
            Serial.dist a.cumulativeTsnAckPoint a.advancedPeerTsnAckPoint :=
        Serial.dist_sub (by omega)
      rw [sna32lt_iff] at hbehind
      omega
    have hdist : Serial.dist d.cumulativeTsnAck a.advancedPeerTsnAckPoint =
        Serial.dist a.cumulativeTsnAckPoint a.advancedPeerTsnAckPoint -
          Serial.dist a.cumulativeTsnAckPoint d.cumulativeTsnAck := Serial.dist_sub hno
    have hbound := Serial.dist_lt a.cumulativeTsnAckPoint a.advancedPeerTsnAckPoint
    have htsn : Serial.dist a.cumulativeTsnAckPoint t =
        Serial.dist a.cumulativeTsnAckPoint d.cumulativeTsnAck +
          Serial.dist d.cumulativeTsnAck t := Serial.dist_add (by omega)
    have habandoned := h (huse ▸ huseb) t (by omega) (by omega)
    refine habandoned.of_label ?_ fun x hx => by rw [hflags]; exact hx
    rw [hmissing.touched.get t, hflight]
    exact label_processSelectiveAck hd hprocess (by omega)

theorem SkipsAbandoned.sack (h : a.SkipsAbandoned) (hok : (a.handleSack now d).2.isOk = true) :
    (a.handleSack now d).1.SkipsAbandoned := by
  by_cases hreads : a.readsSack d = true
  · obtain ⟨b, hfloor, _, hresult⟩ := floorAbandoned_of_reads h hreads hok
    rw [hresult]
    have huse := postprocessSack_kept (f := useForwardTsn) (fun _ _ _ _ _ => rfl)
    have hcum := postprocessSack_kept (f := cumulativeTsnAckPoint) (fun _ _ _ _ _ => rfl)
    have hadv := postprocessSack_kept (f := advancedPeerTsnAckPoint) (fun _ _ _ _ _ => rfl)
    have hflags := postprocessSack_kept (f := flags) (fun _ _ _ _ _ => rfl)
    refine hfloor.raise.congr (huse _ _) (hcum _ _) (hadv _ _) fun t ht => ?_
    rw [postprocessSack_inflightQueue, hflags]
    exact ht
  · rw [handleSack_of_not_reads (by simpa using hreads)]
    exact h

theorem SkipsAbandoned.senderStep (h : a.SkipsAbandoned) {op : SenderOp} (hop : a.Regular op) :
    (a.senderStep op).SkipsAbandoned := by
  by_cases hcall : op.isCall = true
  · exact h.call hcall
  · cases op with
    | gather now => exact h.gather hop.2
    | t3Rtx => exact h.t3Rtx
    | sack now d => exact h.sack hop.1
    | _ => exact absurd rfl hcall

/-! ## The same SACK once more -/

/-- The end of a SACK once more, unless it was the last one before a shutdown. -/
theorem postprocessSack_again {s : AssociationInternal} (h : s.raiseAckPoint = s)
    (hdata : (s.postprocessSack s.state).state ≠ .shutdownSent ∧
      (s.postprocessSack s.state).state ≠ .shutdownAckSent) :
    (s.postprocessSack s.state).raiseAckPoint.postprocessSack (s.postprocessSack s.state).state =
      s.postprocessSack s.state := by
  have hraise : ∀ t, { s with t3rtx := t }.raiseAckPoint = { s.raiseAckPoint with t3rtx := t } := by
    intro t
    unfold raiseAckPoint advanceAckPoint
    dsimp only
    split_ifs <;> rfl
  by_cases hempty : (!s.inflightQueue.isEmpty) = true
  · have hpost : s.postprocessSack s.state = { s with t3rtx := s.t3rtx.start } := by
      unfold postprocessSack
      exact if_pos hempty
    rw [hpost, hraise, h]
    unfold postprocessSack
    exact if_pos hempty
  · have hpost : s.postprocessSack s.state = s := by
      unfold postprocessSack setState at hdata ⊢
      rw [if_neg hempty] at hdata ⊢
      split at hdata
      · exact absurd rfl hdata.1
      · rename_i hpending
        split at hdata
        · exact absurd rfl hdata.2
        · rename_i hreceived
          rw [if_neg hpending, if_neg hreceived]
    rw [hpost, h, hpost]

/-- A SACK that is taken changes nothing when it is taken again. -/
theorem handleSack_handleSack (h : a.SkipsAbandoned)
    (hok : (a.handleSack now d).2.isOk = true) (now' : ℕ) :
    (a.handleSack now d).1.handleSack now' d = ((a.handleSack now d).1, .ok []) := by
  by_cases hreads : a.readsSack d = true
  · by_cases hagain : (a.handleSack now d).1.readsSack d = true
    · rw [handleSack_of_settled (settled_handleSack hreads hok) hagain]
      obtain ⟨b, hfloor, hstate, hresult⟩ := floorAbandoned_of_reads h hreads hok
      have hraised : b.raiseAckPoint.state = a.state :=
        (raiseAckPoint_kept (f := state) (fun _ _ _ => rfl) b).trans hstate
      have hdata := (readsSack_iff.mp hagain).1
      rw [hresult, ← hraised] at hdata ⊢
      rw [postprocessSack_again (raiseAckPoint_raiseAckPoint hfloor)]
      -- a state that still takes SACKs is not one the shutdown has gone on to
      constructor
      · intro heq
        rw [heq] at hdata
        simp at hdata
      · intro heq
        rw [heq] at hdata
        simp at hdata
    · exact handleSack_of_not_reads (by simpa using hagain)
  · have hignored : a.readsSack d = false := by simpa using hreads
    have hsame : a.handleSack now d = (a, .ok []) := handleSack_of_not_reads hignored
    rw [hsame]
    exact handleSack_of_not_reads hignored

/-- **A SACK that is duplicated.** In every state of a run, a SACK that is taken with `Ok` is taken
with `Ok` again, and the second time leaves the whole state as it is. -/
theorem handleSack_again (ha : a.Fresh) (ops : List SenderOp)
    (hops : Runs.Along senderStep SackOk a ops) (now now' : ℕ) (d : ChunkSelectiveAck)
    (htakes : (Runs.run senderStep a ops).TakesSack now d) :
    let s := ((Runs.run senderStep a ops).handleSack now d).1
    s.handleSack now' d = (s, .ok []) := by
  by_cases hreads : (Runs.run senderStep a ops).readsSack d = true
  · have hempty : a.inflightQueue.Exceeds 0 := by
      rw [ha.inflightQueue]
      exact Nat.le_refl 0
    have hend : (Runs.run senderStep a (ops ++ [.sack now d])).inflightQueue.LengthAgrees := by
      rw [Runs.run_append]
      exact htakes.2 hreads
    have hfree := (Runs.along_append a ops [.sack now d]).mp
      (givesFreeTsns_of_lengthAgrees hempty hend)
    have hstart : a.SkipsAbandoned := by
      intro _
      rw [ha.advancedPeerTsnAckPoint]
      exact AbandonedUpTo.refl _ _ _
    have hskips : (Runs.run senderStep a ops).SkipsAbandoned :=
      Runs.run_invariant_along (I := SkipsAbandoned) (fun _ _ hop hs => hs.senderStep hop) hstart
        (Runs.along_and hops hfree.1 : Runs.Along senderStep Regular a ops)
    exact handleSack_handleSack hskips htakes.1 now'
  · have hignored : (Runs.run senderStep a ops).readsSack d = false := by simpa using hreads
    intro s
    have hsame : (Runs.run senderStep a ops).handleSack now d = (Runs.run senderStep a ops, .ok []) :=
      handleSack_of_not_reads hignored
    have hs : s = Runs.run senderStep a ops := congrArg Prod.fst hsame
    rw [hs]
    exact handleSack_of_not_reads hignored

/-- The third SACK of `lossRun`, which begins fast recovery, arrives twice. -/
theorem handleSack_again_lossRun :
    let s := Runs.run senderStep justEstablished (lossRun.take 8)
    let s' := (s.handleSack 9 ⟨0xfffffffe, 4096, [⟨2, 4⟩], []⟩).1
    s'.handleSack 10 ⟨0xfffffffe, 4096, [⟨2, 4⟩], []⟩ = (s', .ok []) :=
  handleSack_again justEstablished_fresh (lossRun.take 8) (by decide +kernel) 9 10 _
    (by decide +kernel)

end AssociationInternal

end Sctp
