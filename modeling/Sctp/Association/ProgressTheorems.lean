import Sctp.Association.HonestSackTheorems
import Sctp.Association.LiveRetransmissionTheorems
import Sctp.Association.WindowGrowthTheorems

/-!
# A sender does not get stuck

Whatever has been lost, one exchange that is not moves the ack point on: after a T3-rtx timeout the
first chunk in flight goes out again, the receiver takes it, and the next SACK covers it.
-/

namespace Sctp

namespace AssociationInternal

variable {a : AssociationInternal} {now n : ℕ} {c : ChunkPayloadData}

/-! ## The first chunk in flight goes out again -/

/-- The timeout marks a chunk that still counts. -/
theorem get_onT3RtxTimeout {t : U32} (hget : a.inflightQueue.get t = some c)
    (hacked : c.acked = false) (hlive : c.isAbandoned a.flags = false) :
    a.onT3RtxTimeout.inflightQueue.get t = some { c with retransmit := true } := by
  have hmarked : (a.inflightQueue.markAllToRetransmit a.flags).get t =
      some { c with retransmit := true } := by
    unfold PayloadQueue.get PayloadQueue.markAllToRetransmit
    dsimp only
    rw [AssocMap.lookup_mapVals, show a.inflightQueue.chunkMap.lookup t = some c from hget,
      Option.map_some, hacked, hlive]
    rfl
  unfold onT3RtxTimeout
  dsimp only
  split
  · have hkept := advanceAckPoint_kept (f := fun b => (b.inflightQueue, b.flags)) (fun _ _ _ => rfl)
      { a with ssthresh := cmpMax (a.cwnd / 2) (4 * a.mtu), cwnd := a.mtu }
    rw [show AssociationInternal.inflightQueue _ = a.inflightQueue from congrArg Prod.fst hkept,
      show AssociationInternal.flags _ = a.flags from congrArg Prod.snd hkept]
    exact hmarked
  · exact hmarked

/-- A marked chunk behind the ack point is the first to be selected, as a probe where the peer's
window is closed. -/
theorem selects_first (hget : a.inflightQueue.get (a.cumulativeTsnAckPoint + 1) = some c)
    (hmark : c.retransmit = true) (hfits : c.userData.length ≤ a.cwnd.toNat) :
    (c, a.flags) ∈ a.selectsToRetransmit now := by
  unfold selectsToRetransmit
  rcases tsnsFrom_cases a.inflightQueue (a.cumulativeTsnAckPoint + 1) with ⟨_, hnone⟩ | ⟨tsns, heq⟩
  · rw [hget] at hnone
    cases hnone
  · rw [heq, retransmitSelects, hget]
    dsimp only
    rw [hmark]
    simp only [Bool.not_true, Bool.false_eq_true, if_false, Bool.true_and, Nat.zero_add]
    by_cases hprobe : a.rwnd < BitVec.ofNat 32 c.userData.length
    · simp [hprobe]
    · have hopen : c.userData.length ≤ a.rwnd.toNat := by
        rw [BitVec.not_lt, BitVec.le_def, BitVec.toNat_ofNat, Nat.mod_eq_of_lt (by omega)] at hprobe
        exact hprobe
      have hmin : ¬ c.userData.length > (cmpMin a.cwnd a.rwnd).toNat := by
        unfold cmpMin
        split <;> omega
      simp [hprobe, hmin]

theorem mem_retransmitted (hsel : (c, a.flags) ∈ a.selectsToRetransmit now) :
    ∃ packet ∈ (a.getDataPacketsToRetransmit now).2,
      .payloadData { c with retransmit := false, nsent := c.nsent + 1 } ∈ packet.chunks := by
  unfold getDataPacketsToRetransmit
  have hsends := retransmitFrom_sends now (cmpMin a.cwnd a.rwnd) a 0 [] true
    (a.inflightQueue.tsnsFrom (a.cumulativeTsnAckPoint + 1))
  generalize retransmitFrom now (cmpMin a.cwnd a.rwnd) a 0 [] true
    (a.inflightQueue.tsnsFrom (a.cumulativeTsnAckPoint + 1)) = sent at hsends ⊢
  obtain ⟨b, chunks⟩ := sent
  dsimp only at hsends ⊢
  have hin : { c with retransmit := false, nsent := c.nsent + 1 } ∈ chunks := by
    rw [hsends, List.nil_append]
    exact List.mem_map_of_mem (f := fun s : ChunkPayloadData × SharedFlags =>
      { s.1 with retransmit := false, nsent := s.1.nsent + 1 }) hsel
  have hall : Chunk.payloadData { c with retransmit := false, nsent := c.nsent + 1 } ∈
      (b.bundleDataChunksIntoPackets chunks).flatMap (·.chunks) := by
    rw [chunks_bundleDataChunksIntoPackets]
    exact List.mem_map_of_mem hin
  exact List.mem_flatMap.mp hall

/-- What is to be sent again is in the packets of the next gather. -/
theorem mem_gatherOutbound_of_retransmitted (hsends : a.sendsAgain = true) {packet : Packet}
    (hpacket : packet ∈ ({ a with controlQueue := [] }.getDataPacketsToRetransmit now).2) :
    packet ∈ (a.gatherOutbound now).2.1 := by
  have hestablished : packet ∈ ({ a with controlQueue := [] }.gatherEstablished now).2 := by
    unfold gatherEstablished
    simp only [List.mem_append]
    exact Or.inl (Or.inl (Or.inl (Or.inl hpacket)))
  have hclosing : packet ∈ ({ a with controlQueue := [] }.gatherShutdown now).2.1 := by
    unfold gatherShutdown
    simp only [List.mem_append]
    exact Or.inl (Or.inl (Or.inl hpacket))
  unfold gatherOutbound
  dsimp only
  split
  · exact List.mem_append_right _ hestablished
  · exact List.mem_append_right _ hclosing
  · exact List.mem_append_right _ hclosing
  · exact List.mem_append_right _ hclosing
  · rename_i hstate
    unfold sendsAgain at hsends
    rw [hstate] at hsends
    cases hsends
  · rename_i h₁ h₂ h₃ h₄ _
    have hquiet : a.sendsAgain = false := by
      unfold sendsAgain
      simp only [Bool.or_eq_false_iff, decide_eq_false_iff_not]
      exact ⟨⟨⟨h₁, h₂⟩, h₃⟩, h₄⟩
    rw [hquiet] at hsends
    cases hsends

/-- **After a timeout** the first chunk in flight is sent again, if it has neither been acknowledged
nor abandoned. -/
theorem sends_afterTimeout (hsends : a.sendsAgain = true)
    (hget : a.inflightQueue.get (a.cumulativeTsnAckPoint + 1) = some c) (hacked : c.acked = false)
    (hlive : c.isAbandoned a.flags = false) (hfits : c.userData.length ≤ a.mtu.toNat) :
    { c with retransmit := false, nsent := c.nsent + 1 } ∈ a.onT3RtxTimeout.sendsData (.gather now) := by
  obtain ⟨b, hb⟩ : ∃ b, b = a.onT3RtxTimeout := ⟨_, rfl⟩
  have hstate : b.sendsAgain = a.sendsAgain := by
    rw [hb]
    exact onT3RtxTimeout_kept (f := sendsAgain) (fun _ _ _ _ _ _ => rfl) a
  have hpoint : b.cumulativeTsnAckPoint = a.cumulativeTsnAckPoint := by
    rw [hb]
    exact onT3RtxTimeout_kept (f := cumulativeTsnAckPoint) (fun _ _ _ _ _ _ => rfl) a
  have hmarked : b.inflightQueue.get (b.cumulativeTsnAckPoint + 1) = some { c with retransmit := true } := by
    rw [hpoint, hb]
    exact get_onT3RtxTimeout hget hacked hlive
  have hcwnd : b.cwnd = a.mtu := by rw [hb, cwnd_onT3RtxTimeout]
  rw [← hb, mem_sendsData]
  have hfirst : ({ c with retransmit := true }, b.flags) ∈
      { b with controlQueue := [] }.selectsToRetransmit now :=
    selects_first (a := { b with controlQueue := [] }) hmarked rfl (by rw [hcwnd]; exact hfits)
  obtain ⟨packet, hpacket, hin⟩ := mem_retransmitted hfirst
  exact ⟨packet, mem_gatherOutbound_of_retransmitted (hstate.trans hsends) hpacket, hin⟩

/-! ## What is acknowledged in a gap has arrived -/

/-- The chunk is acknowledged only if its TSN has been taken. -/
def AckedOf (taken : List U32) (c : ChunkPayloadData) : Prop := c.acked = true → c.tsn ∈ taken

variable {taken : List U32}

theorem retransmits_ackedOf (taken : List U32) : Retransmits (AckedOf taken) fun _ => True where
  again _ hc _ := ⟨hc, trivial⟩
  fast _ hc _ := ⟨hc, trivial⟩

/-- What sending again keeps and new chunks have, all that is in flight has after a gather. -/
theorem gather_each {Q : ChunkPayloadData → Prop} (hQ : Retransmits Q fun _ => True)
    (h : a.inflightQueue.Each Q) (now : ℕ) (hnew : ∀ c ∈ a.assigns (.gather now), Q c) :
    (a.gatherOutbound now).1.inflightQueue.Each Q := by
  by_cases hstate : a.state = .established
  · have hassigns : a.assigns (.gather now) = ({ a with controlQueue := [] }.popped now).2.1 :=
      if_pos hstate
    rw [hassigns] at hnew
    obtain ⟨_, _, hgather⟩ := gatherOutbound_spec hstate now rfl
    exact (hgather (S := fun _ => True) (F := fun _ => True) hQ h (fun c hc => ⟨hnew c hc, trivial⟩)
      trivial trivial).1
  · exact (gather_each_of_ne hQ hstate now h).1

theorem ackedOf_markAsAcked {q : PayloadQueue} (h : q.Each (AckedOf taken)) {t : U32} (ht : t ∈ taken) :
    (q.markAsAcked t).1.Each (AckedOf taken) := by
  unfold PayloadQueue.markAsAcked
  split
  · have hmut := h.getMut (t := t) (f := fun c =>
      { c with acked := true, retransmit := false, userData := [] })
      fun c hc => ⟨rfl, fun _ => by rw [(h t c hc).1]; exact ht⟩
    exact hmut
  · exact h

theorem ackedOf_handleSack {d : ChunkSelectiveAck} (h : a.inflightQueue.Each (AckedOf taken))
    (hok : (a.handleSack now d).2.isOk = true)
    (hcovered : a.readsSack d = true → ∀ t, a.covers d t → t ∈ taken) :
    (a.handleSack now d).1.inflightQueue.Each (AckedOf taken) := by
  by_cases hreads : a.readsSack d = true
  · obtain ⟨b, bytesAcked, htna, hprocess, hnotes⟩ := handleSack_of_reads hreads hok
    have hflight : (b.applySack d bytesAcked).inflightQueue = b.inflightQueue :=
      (applySack_of_processSelectiveAck (dist_lt_of_reads hreads) hprocess).2
    have hacks := processSelectiveAck_rule (R := fun q _ => q.Each (AckedOf taken))
      (dist_lt_of_reads hreads)
      (fun t q q' c b _ hpop hq => by
        have hpopped := hq.pop t
        rw [hpop] at hpopped
        exact hpopped)
      (fun t q c b ht _ _ hq => ackedOf_markAsAcked hq (hcovered hreads t ht)) hprocess h
    refine hnotes.payloads.each (fun c c' hsame hc hacked => ?_) (by rw [hflight]; exact hacks.1)
    have htsn : c.tsn = c'.tsn := (congrArg ChunkPayloadData.tsn hsame :)
    have hback : c.acked = c'.acked := (congrArg ChunkPayloadData.acked hsame :)
    rw [← htsn]
    exact hc (hback.trans hacked)
  · rw [handleSack_of_not_reads (by simpa using hreads)]
    exact h

/-- **One operation** acknowledges nothing but what has been taken. -/
theorem ackedOf_senderStep {op : SenderOp} (h : a.inflightQueue.Each (AckedOf taken))
    (hpending : a.pendingQueue.Each (·.acked = false)) (hop : a.Transmits op)
    (hcovered : ∀ now d, op = .sack now d → a.readsSack d = true → ∀ t, a.covers d t → t ∈ taken) :
    (a.senderStep op).inflightQueue.Each (AckedOf taken) := by
  by_cases hcall : op.isCall = true
  · have hflight : (a.senderStep op).inflightQueue = a.inflightQueue :=
      (congrArg inflightQueue (called_senderStep hcall).frame :)
    rw [hflight]
    exact h
  · cases op with
    | gather now =>
      refine gather_each (retransmits_ackedOf taken) h now fun c hc hacked => ?_
      rw [(unacked_senderStep hpending hop.2).2 c hc] at hacked
      cases hacked
    | t3Rtx =>
      obtain ⟨flags, heq⟩ := a.inflightQueue_onT3RtxTimeout
      show a.onT3RtxTimeout.inflightQueue.Each _
      rw [heq]
      exact h.markAllToRetransmit flags fun _ hc _ => hc
    | sack now d => exact ackedOf_handleSack h hop.1.1 (hcovered now d rfl)
    | _ => exact absurd rfl hcall

/-! ## What a gather leaves in bounds -/

theorem len_pushes_le (q : PayloadQueue) (chunks : List ChunkPayloadData) :
    (chunks.foldl PayloadQueue.pushNoCheck q).len ≤ q.len + chunks.length := by
  induction chunks generalizing q with
  | nil => exact Nat.le_refl _
  | cons c chunks ih =>
    have hone : (q.pushNoCheck c).len ≤ q.len + 1 := by
      show (q.chunkMap.insert c.tsn c).keys.length ≤ q.chunkMap.keys.length + 1
      rw [AList.keys_insert, List.length_cons]
      exact Nat.succ_le_succ (List.length_erase_le ..)
    have hrest := ih (q.pushNoCheck c)
    rw [List.length_cons, List.foldl_cons]
    omega

/-- Nothing but the chunks that get TSNs is added to what is in flight. -/
theorem len_gatherOutbound_le {Q : ChunkPayloadData → Prop} (h : a.inflightQueue.Each Q) (now : ℕ) :
    (a.gatherOutbound now).1.inflightQueue.len ≤
      a.inflightQueue.len + (a.assigns (.gather now)).length := by
  by_cases hstate : a.state = .established
  · have hassigns : a.assigns (.gather now) = ({ a with controlQueue := [] }.popped now).2.1 :=
      if_pos hstate
    rw [len_gatherOutbound hstate, hassigns]
    have hresends := (resends_getDataPacketsToRetransmit { a with controlQueue := [] } now).touched
    have hmoves := popPending_moves ({ a with controlQueue := [] }.getDataPacketsToRetransmit now).1 now
    show (({ a with controlQueue := [] }.getDataPacketsToRetransmit now).1.popPendingDataChunksToSend
      now).1.inflightQueue.len ≤ _
    rw [show AssociationInternal.inflightQueue _ = _ from congrArg inflightQueue hmoves.frame]
    have hpushed := len_pushes_le
      ({ a with controlQueue := [] }.getDataPacketsToRetransmit now).1.inflightQueue
      (({ a with controlQueue := [] }.getDataPacketsToRetransmit now).1.popPendingDataChunksToSend now).2.1
    rw [hresends.len_eq] at hpushed
    exact hpushed
  · rw [(gather_each_of_ne (Q := fun _ => True) (E := fun _ => True) ?_ hstate now ?_).2.1.len_eq]
    · exact Nat.le_add_right _ _
    · exact ⟨fun _ _ _ => ⟨trivial, trivial⟩, fun _ _ _ => ⟨trivial, trivial⟩⟩
    · exact fun t c hc => ⟨(h t c hc).1, trivial⟩

/-- What moves into flight is noted as sent once, now. -/
theorem numbered_of_assigns {Q : ChunkPayloadData → Prop} (hQ : ∀ c tsn, Q (numbered c tsn now))
    (a : AssociationInternal) : ∀ c ∈ a.assigns (.gather now), Q c := by
  intro c hc
  have hassigns : a.assigns (.gather now) =
    if a.state = .established then ({ a with controlQueue := [] }.popped now).2.1 else [] := rfl
  rw [hassigns] at hc
  split at hc
  · refine popPendingDataChunksToSend_invariant (P := fun _ chunks => ∀ c ∈ chunks, Q c)
      (fun _ _ _ _ _ hb => hb) ?_ (fun c hc => absurd hc List.not_mem_nil) c hc
    intro b chunks d rwnd _ hb c hc
    rcases List.mem_append.mp hc with hold | hnew
    · exact hb c hold
    · rcases hpop : b.pendingQueue.pop d.beginningFragment d.unordered with ⟨q, _ | d'⟩
      · rw [movePending_of_none (a := { b with rwnd }) hpop] at hnew
        exact absurd hnew List.not_mem_nil
      · obtain ⟨flags, _, heq⟩ := movePending_of_some (a := { b with rwnd }) now hpop
        rw [heq] at hnew
        rw [List.mem_singleton.mp hnew]
        exact hQ d' _
  · exact absurd hc List.not_mem_nil

/-! ## What the receiver acknowledges next -/

/-- The cumulative TSN goes as far as it can. -/
theorem Receipt.le_peerLastTsn {start t : U32} (h : Receipt start taken a) (hcovers : Covers start taken t) :
    Serial.dist start t ≤ Serial.dist start a.peerLastTsn := by
  by_contra hlt
  have hnear : Serial.dist start a.peerLastTsn < 2 ^ 31 := h.full.near
  have hone : Serial.dist a.peerLastTsn (a.peerLastTsn + 1) = 1 := PayloadQueue.Ahead.dist_next _
  have hnext : Serial.dist start (a.peerLastTsn + 1) =
      Serial.dist start a.peerLastTsn + Serial.dist a.peerLastTsn (a.peerLastTsn + 1) :=
    Serial.dist_add (by omega)
  rcases (h.full.seen_iff _).mpr (Or.inr (hcovers.accepted (a.peerLastTsn + 1) (by omega) (by omega))) with
    hheld | hpassed
  · exact h.receiving.next_missing hheld
  · change Serial.dist start (a.peerLastTsn + 1) ≤ Serial.dist start a.peerLastTsn at hpassed
    omega

/-- A chunk that the cumulative TSN passes brings nothing out of reach. -/
theorem HoldsInReach.handleData {d : ChunkPayloadData} (hreach : a.HoldsInReach) (h : a.Receiving)
    (hgone : d.tsn ∉ (a.handleData d).1.payloadQueue.chunkMap) : (a.handleData d).1.HoldsInReach := by
  intro t ht
  have hmem : t ∈ (a.handleData d).1.payloadQueue.chunkMap := AList.mem_keys.mpr ht
  obtain ⟨_, k, hslides⟩ := h.handleData d
  obtain ⟨hin, hk⟩ := (hslides.mem_held t).mp hmem
  have hheld : t ∈ a.payloadQueue.chunkMap := by
    refine hin.resolve_right fun htaken => ?_
    split at htaken
    · rw [List.mem_singleton.mp htaken] at hmem
      exact hgone hmem
    · exact absurd htaken List.not_mem_nil
  obtain ⟨hle, hnear⟩ := hreach t (AList.mem_keys.mp hheld)
  have hdist : k + Serial.dist (a.handleData d).1.peerLastTsn t = Serial.dist a.peerLastTsn t :=
    hslides.dist_held (by decide) (Nat.le_of_lt hk)
  have hpoint : (a.handleData d).1.peerLastTsn = a.peerLastTsn + BitVec.ofNat 32 k := hslides.point_eq
  -- nothing wraps on the way to what is held
  have hflat : Serial.dist a.peerLastTsn t = t.toNat - a.peerLastTsn.toNat := BitVec.toNat_sub_of_le hle
  rw [BitVec.le_def] at hle
  refine ⟨?_, by omega⟩
  have hlt := t.isLt
  change k < Serial.dist a.peerLastTsn t at hk
  rw [BitVec.le_def, hpoint, BitVec.toNat_add, BitVec.toNat_ofNat, Nat.mod_eq_of_lt (a := k) (by omega),
    Nat.mod_eq_of_lt (by omega)]
  omega

end AssociationInternal

namespace Link

open AssociationInternal SendLog ReadLog

variable {si : U16} {maxLen : ℕ} {first : U32} {l : Link} {op : LinkOp} {ops : List LinkOp}

/-- A SACK of the receiver that is looked at covers only what has been accepted. -/
theorem Backed.covered (h : Backed si maxLen first l) (hfew : l.sender.assigned.length < 2 ^ 31)
    {d : ChunkSelectiveAck} (hd : d ∈ l.sacks) (hreads : l.sender.association.readsSack d = true) {t : U32}
    (ht : l.sender.association.covers d t) : t ∈ l.receiver.accepted := by
  rcases ht with ⟨hpos, hle⟩ | hgap
  · obtain ⟨n, p, k, _, _, hpoint, _, hcum, hsent, hbehind⟩ := h.exists_sack hfew hd
    have hp := hbehind hreads
    obtain ⟨m, hm⟩ : ∃ m, m = Serial.dist l.sender.association.cumulativeTsnAckPoint t := ⟨_, rfl⟩
    have htsn : t = first.after (p + m) := by
      rw [hm, ← after_add, ← hpoint, after_dist]
    rw [← hm] at hpos hle
    rw [hpoint, hcum, dist_after_after first hp (by omega)] at hle
    refine (h.sacks d hd).accepted t ?_ ?_
    · rw [htsn, dist_after first (by omega)]
      omega
    · rw [htsn, hcum, dist_after first (by omega), dist_after first (by omega)]
      omega
  · exact (h.gaps d hd t hgap).1

/-- What is acknowledged in flight has been accepted, too. -/
structure Accounted (si : U16) (maxLen : ℕ) (first : U32) (l : Link) : Prop
    extends Backed si maxLen first l where
  acked : l.sender.association.inflightQueue.Each (AckedOf l.receiver.accepted)

theorem accounted_start {a b : AssociationInternal} (h : a.MeetsFresh b si) :
    Accounted si maxLen b.peerLastTsn (start a b) where
  toBacked := backed_start h
  acked := by
    show a.inflightQueue.Each _
    rw [h.fresh.inflightQueue]
    exact PayloadQueue.Each.new

theorem Accounted.step (h : Accounted si maxLen first l) (hop : l.Honest si maxLen op)
    (hfew : l.sender.assigned.length < 2 ^ 31) : Accounted si maxLen first (l.step si op) := by
  obtain ⟨hpermits, hgenuine⟩ := h.permits hop hfew
  refine ⟨h.toBacked.step hpermits hgenuine ?_ hfew, ?_⟩
  · rintro rfl
    exact hop
  · cases op with
    | send op =>
      refine ackedOf_senderStep h.acked h.records.transmitting.pending hpermits.1 ?_
      rintro now d rfl hreads t ht
      exact h.covered hfew hgenuine hreads ht
    | receive op =>
      intro t c hc
      obtain ⟨htsn, hacked⟩ := h.acked t c hc
      exact ⟨htsn, fun ha => List.mem_append_left _ (hacked ha)⟩
    | reply => exact h.acked

theorem Accounted.run (h : Accounted si maxLen first l)
    (hops : Runs.Along (Link.step si) (Honest si maxLen) l ops)
    (hfew : (Runs.run (Link.step si) l ops).sender.assigned.length < 2 ^ 31) :
    Accounted si maxLen first (Runs.run (Link.step si) l ops) := by
  induction ops generalizing l with
  | nil => exact h
  | cons op ops ih =>
    have hlen : l.sender.assigned.length ≤
        (Runs.run (Link.step si) l (op :: ops)).sender.assigned.length :=
      (grows_run l (op :: ops)).assigned.length_le
    exact ih (h.step hops.1 (by omega)) hops.2 hfew

/-! ### One exchange -/

/-- Nothing but losses holds the first chunk in flight up: it is not abandoned and fits into a packet,
the receiver takes it, if it has not yet, and can report what it holds. -/
structure Ready (si : U16) (l : Link) (now later : ℕ) (c : ChunkPayloadData) : Prop where
  state : l.sender.association.state = .established ∨ l.sender.association.state = .shutdownPending ∨
    l.sender.association.state = .shutdownReceived
  first : l.sender.association.inflightQueue.get (l.sender.association.cumulativeTsnAckPoint + 1) = some c
  live : c.isAbandoned l.sender.association.flags = false
  fits : c.userData.length ≤ l.sender.association.mtu.toNat
  clock : now ≤ later ∧ ∀ d ∈ l.sender.association.inflightQueue.chunkMap.values, d.since ≤ later
  takes : c.tsn ∉ l.receiver.accepted → l.receiver.association.handsOver c = true
  inReach : l.receiver.InReach si l.sender c
  holdsInReach : l.receiver.association.HoldsInReach

/-- A T3-rtx timeout and a gather, the arrival of what it sends, and the SACK. -/
def exchange (now later : ℕ) (arrives : List ChunkPayloadData) (sack : ChunkSelectiveAck) : List LinkOp :=
  [.send .t3Rtx, .send (.gather now)] ++ arrives.map (fun d => .receive (.data d)) ++
    [.reply, .send (.sack later sack)]

variable {now later : ℕ} {c : ChunkPayloadData}

theorem Accounted.again (h : Accounted si maxLen first l)
    (hfew : (Runs.run (Link.step si) l [.send .t3Rtx, .send (.gather now)]).sender.assigned.length < 2 ^ 31) :
    Runs.Along (Link.step si) (Honest si maxLen) l [.send .t3Rtx, .send (.gather now)] := by
  have hlen : l.sender.assigned.length ≤
      (Runs.run (Link.step si) l [.send .t3Rtx, .send (.gather now)]).sender.assigned.length :=
    (grows_run l _).assigned.length_le
  obtain ⟨n, p, hn, hsending, hpoint, hall⟩ := h.exists_inflight (by omega)
  have hflight : l.sender.association.onT3RtxTimeout.inflightQueue.len = n := by
    rw [(onT3RtxTimeout_touched l.sender.association).len_eq, hsending.window.len_eq]
  have ht3 : l.Honest si maxLen (.send .t3Rtx) := by
    refine ⟨⟨⟨trivial, ?_⟩, trivial⟩, trivial⟩
    show l.sender.association.onT3RtxTimeout.inflightQueue.len < 2 ^ 31
    omega
  have hafter := h.step ht3 (by omega)
  refine ⟨ht3, ⟨⟨⟨trivial, ?_⟩, trivial⟩, trivial⟩, trivial⟩
  -- what gets a TSN has been counted among the chunks sent
  have hgather := len_gatherOutbound_le (a := l.sender.association.onT3RtxTimeout) hafter.acked now
  have htotal : (Runs.run (Link.step si) l [.send .t3Rtx, .send (.gather now)]).sender.assigned.length =
      l.sender.assigned.length + (l.sender.association.onT3RtxTimeout.assigns (.gather now)).length := by
    show ((l.sender.assigned ++ []) ++ l.sender.association.onT3RtxTimeout.assigns (.gather now)).length = _
    rw [List.append_nil, List.length_append]
  show (l.sender.association.onT3RtxTimeout.gatherOutbound now).1.inflightQueue.len < 2 ^ 31
  omega

/-- With the next TSN all up to it has been accepted. -/
theorem Truthful.covers_next (h : Truthful si maxLen first l)
    (hin : l.sender.association.cumulativeTsnAckPoint + 1 ∈ l.receiver.accepted) :
    Covers first l.receiver.accepted (l.sender.association.cumulativeTsnAckPoint + 1) ∧
      Serial.dist first (l.sender.association.cumulativeTsnAckPoint + 1) =
        Serial.dist first l.sender.association.cumulativeTsnAckPoint + 1 := by
  have hnear := h.ackPoint.near
  have hone : Serial.dist l.sender.association.cumulativeTsnAckPoint
      (l.sender.association.cumulativeTsnAckPoint + 1) = 1 := PayloadQueue.Ahead.dist_next _
  have hnext : Serial.dist first (l.sender.association.cumulativeTsnAckPoint + 1) =
      Serial.dist first l.sender.association.cumulativeTsnAckPoint + 1 := by
    rw [← hone]
    exact Serial.dist_add (by omega)
  refine ⟨⟨h.receipt.full.taken_near _ hin, fun x hpos hle => ?_⟩, hnext⟩
  by_cases hlast : Serial.dist first x = Serial.dist first (l.sender.association.cumulativeTsnAckPoint + 1)
  · rw [Serial.dist_inj hlast]
    exact hin
  · exact h.ackPoint.accepted x hpos (by omega)

/-- **What the receiver has taken, its next SACK acknowledges.** -/
theorem Accounted.acknowledges (h : Accounted si maxLen first l) (hfew : l.sender.assigned.length < 2 ^ 31)
    (hstate : l.sender.association.state = .established ∨ l.sender.association.state = .shutdownPending ∨
      l.sender.association.state = .shutdownReceived)
    (hin : l.sender.association.cumulativeTsnAckPoint + 1 ∈ l.receiver.accepted)
    (hreach : l.receiver.association.HoldsInReach)
    (hclock : ∀ d ∈ l.sender.association.inflightQueue.chunkMap.values, d.since ≤ later) :
    ∃ sack, Runs.Along (Link.step si) (Honest si maxLen) l [.reply, .send (.sack later sack)] ∧
      sna32lt l.sender.association.cumulativeTsnAckPoint
        (Runs.run (Link.step si) l
          [.reply, .send (.sack later sack)]).sender.association.cumulativeTsnAckPoint = true := by
  obtain ⟨sack, hsack⟩ : ∃ sack, sack = l.receiver.association.createSelectiveAckChunk.2 := ⟨_, rfl⟩
  have hreplied : Accounted si maxLen first (l.step si .reply) := h.step hreach hfew
  have hop : (l.step si .reply).Honest si maxLen (.send (.sack later sack)) := by
    refine ⟨?_, hclock⟩
    rw [hsack]
    exact List.mem_append_right _ (List.mem_singleton_self _)
  have hok : (l.sender.association.handleSack later sack).2.isOk = true :=
    (hreplied.permits hop hfew).1.1.1.1
  have hcum : sack.cumulativeTsnAck = l.receiver.association.peerLastTsn := by
    rw [hsack]
    rfl
  -- the SACK goes beyond the ack point
  obtain ⟨hcovers, hnext⟩ := h.covers_next hin
  have hfar := h.receipt.le_peerLastTsn hcovers
  have hnear : Serial.dist first l.receiver.association.peerLastTsn < 2 ^ 31 := h.receipt.full.near
  have hdist : Serial.dist l.sender.association.cumulativeTsnAckPoint sack.cumulativeTsnAck =
      Serial.dist first l.receiver.association.peerLastTsn -
        Serial.dist first l.sender.association.cumulativeTsnAckPoint := by
    rw [hcum]
    exact Serial.dist_sub (by omega)
  have hreads : l.sender.association.readsSack sack = true := by
    rw [readsSack_iff]
    refine ⟨hstate, ?_⟩
    rw [Bool.eq_false_iff, Ne, sna32gt_iff]
    omega
  refine ⟨sack, ⟨hreach, hop, trivial⟩, ?_⟩
  show sna32lt l.sender.association.cumulativeTsnAckPoint
    (l.sender.association.handleSack later sack).1.cumulativeTsnAckPoint = true
  rw [cumulativeTsnAckPoint_handleSack hreads hok, sna32lt_iff]
  omega

theorem sendsAgain_of_reads {a : AssociationInternal}
    (h : a.state = .established ∨ a.state = .shutdownPending ∨ a.state = .shutdownReceived) :
    a.sendsAgain = true := by
  unfold sendsAgain
  rcases h with h | h | h <;> rw [h] <;> rfl

/-- The receiver has the first chunk in flight, or gets it from the packets of the gather. -/
theorem Accounted.arrives (h : Accounted si maxLen first l) (hready : l.Ready si now later c) {l' : Link}
    (hl' : l' = Runs.run (Link.step si) l [.send .t3Rtx, .send (.gather now)])
    (hpoint : l'.sender.association.cumulativeTsnAckPoint = l.sender.association.cumulativeTsnAckPoint)
    (hsent : Accounted si maxLen first l') (hfew : l'.sender.assigned.length < 2 ^ 31) :
    ∃ arrives : List ChunkPayloadData, arrives.length ≤ 1 ∧
      Runs.Along (Link.step si) (Honest si maxLen) l' (arrives.map fun d => .receive (.data d)) ∧
      l.sender.association.cumulativeTsnAckPoint + 1 ∈
        (Runs.run (Link.step si) l' (arrives.map fun d => .receive (.data d))).receiver.accepted ∧
      (Runs.run (Link.step si) l'
        (arrives.map fun d => .receive (.data d))).receiver.association.HoldsInReach ∧
      (Runs.run (Link.step si) l' (arrives.map fun d => .receive (.data d))).sender = l'.sender := by
  have hreceiver : l'.receiver = l.receiver := by
    rw [hl']
    rfl
  obtain ⟨htsn, hacked⟩ := h.acked _ c hready.first
  by_cases hack : c.acked = true
  · -- a gap ack block has reported it
    refine ⟨[], Nat.zero_le _, trivial, ?_, ?_, rfl⟩
    · show _ ∈ l'.receiver.accepted
      rw [hreceiver, ← htsn]
      exact hacked hack
    · show l'.receiver.association.HoldsInReach
      rw [hreceiver]
      exact hready.holdsInReach
  · have hsends : _ ∈ l.sender.association.onT3RtxTimeout.sendsData (.gather now) :=
      sends_afterTimeout (sendsAgain_of_reads hready.state) hready.first (by simpa using hack) hready.live
        hready.fits
    obtain ⟨packet, hpacket, hin⟩ := mem_sendsData.mp hsends
    have hop : l'.Honest si maxLen (.receive (.data c.arriving)) := by
      refine ⟨⟨packet, ?_, _, hin, rfl, rfl⟩, ?_⟩
      · rw [hl']
        exact List.mem_append_right _ hpacket
      · -- the chunk has its place among what has been sent
        have hgrows : l.sender.Grows l'.sender := hl' ▸ grows_run l _
        have hlen := hgrows.assigned.length_le
        obtain ⟨n, p, hn, hsending, hstart, hall⟩ := h.exists_inflight (by omega)
        have hone : Serial.dist l.sender.association.cumulativeTsnAckPoint
            (l.sender.association.cumulativeTsnAckPoint + 1) = 1 := PayloadQueue.Ahead.dist_next _
        have hinside := (hsending.window.mem_window (t := l.sender.association.cumulativeTsnAckPoint + 1)
          (by omega)).mp (AList.lookup_isSome.mp (by
            rw [show l.sender.association.inflightQueue.chunkMap.lookup _ = some c from hready.first]
            rfl))
        obtain ⟨c', hc'⟩ : ∃ c', l.sender.assigned[p]? = some c' :=
          ⟨_, List.getElem?_eq_getElem (by omega)⟩
        have hplace : c'.tsn = c.tsn := by
          rw [h.records.tsns p c' hc', htsn, hstart, after_succ, Nat.add_comm]
          exact after_add first 1 p
        rw [hreceiver]
        exact InReach.later (d := c.arriving) hready.inReach hgrows h.records hsent.records hfew hc' hplace
    have haccepted : l.sender.association.cumulativeTsnAckPoint + 1 ∈
        (l'.step si (.receive (.data c.arriving))).receiver.accepted := by
      rw [← htsn]
      show c.tsn ∈ l'.receiver.accepted ++ l'.receiver.association.handedOver (.data c.arriving)
      rw [hreceiver]
      by_cases hold : c.tsn ∈ l.receiver.accepted
      · exact List.mem_append_left _ hold
      · refine List.mem_append_right _ ?_
        have htakes : l.receiver.association.handsOver c.arriving = true := hready.takes hold
        show _ ∈ (if l.receiver.association.handsOver c.arriving then [c.arriving.tsn] else [])
        rw [if_pos htakes]
        exact List.mem_singleton_self _
    have hafter := hsent.step hop hfew
    refine ⟨[c.arriving], Nat.le_refl _, ⟨hop, trivial⟩, haccepted, ?_, rfl⟩
    -- the cumulative TSN passes it at once
    show (l'.receiver.association.handleData c.arriving).1.HoldsInReach
    refine HoldsInReach.handleData (by rw [hreceiver]; exact hready.holdsInReach)
      hsent.receipt.receiving fun hheld => ?_
    have hnext : (l'.step si (.receive (.data c.arriving))).sender.association.cumulativeTsnAckPoint =
        l.sender.association.cumulativeTsnAckPoint := hpoint
    have hfar := hafter.receipt.le_peerLastTsn (hafter.covers_next (by rw [hnext]; exact haccepted)).1
    have hbehind := (dist_lt_of_held hafter.receipt hheld).2
    rw [hnext, ← htsn] at hfar
    exact absurd hbehind (Nat.not_lt.mpr hfar)

/-- **One exchange without losses** moves the ack point on. -/
theorem Accounted.advances (h : Accounted si maxLen first l) (hready : l.Ready si now later c)
    (hfew : (Runs.run (Link.step si) l [.send .t3Rtx, .send (.gather now)]).sender.assigned.length < 2 ^ 31) :
    ∃ arrives sack, List.length arrives ≤ 1 ∧
      Runs.Along (Link.step si) (Honest si maxLen) l (exchange now later arrives sack) ∧
      sna32lt l.sender.association.cumulativeTsnAckPoint
        (Runs.run (Link.step si) l
          (exchange now later arrives sack)).sender.association.cumulativeTsnAckPoint = true := by
  have hagain := h.again hfew
  have hsent := h.run hagain hfew
  obtain ⟨l', hl'⟩ : ∃ l', l' = Runs.run (Link.step si) l [.send .t3Rtx, .send (.gather now)] := ⟨_, rfl⟩
  rw [← hl'] at hsent hfew
  have hassociation : l'.sender.association = (l.sender.association.onT3RtxTimeout.gatherOutbound now).1 := by
    rw [hl']
    rfl
  -- the timeout and the gather leave the ack point and the state
  have hpoint : l'.sender.association.cumulativeTsnAckPoint = l.sender.association.cumulativeTsnAckPoint := by
    rw [hassociation, cumulativeTsnAckPoint_gatherOutbound]
    exact onT3RtxTimeout_kept (f := cumulativeTsnAckPoint) (fun _ _ _ _ _ _ => rfl) _
  have hstate : l'.sender.association.state = l.sender.association.state := by
    rw [hassociation]
    refine Eq.trans ?_ (onT3RtxTimeout_kept (f := AssociationInternal.state) (fun _ _ _ _ _ _ => rfl) _)
    exact gatherOutbound_frame (f := AssociationInternal.state) (fun _ => rfl) (fun _ _ _ => rfl)
      (fun _ _ _ _ _ _ => rfl) (fun _ _ _ _ _ _ => rfl) (fun _ => rfl) (fun _ _ _ => rfl) (fun _ => rfl)
      (fun _ _ _ _ _ => rfl) _ now
  have hclock : ∀ d ∈ l'.sender.association.inflightQueue.chunkMap.values, d.since ≤ later := by
    have hnow : l.sender.association.inflightQueue.Each (·.since ≤ later) := fun t d hd =>
      ⟨(h.acked t d hd).1, hready.clock.2 d (AssocMap.mem_values_of_lookup hd)⟩
    obtain ⟨flags, heq⟩ := l.sender.association.inflightQueue_onT3RtxTimeout
    have hmarked : l.sender.association.onT3RtxTimeout.inflightQueue.Each (·.since ≤ later) := by
      rw [heq]
      exact hnow.markAllToRetransmit flags fun _ hc _ => hc
    have hgather := gather_each (Q := (·.since ≤ later))
      ⟨fun _ hc _ => ⟨hc, trivial⟩, fun _ hc _ => ⟨hc, trivial⟩⟩ hmarked now
      (numbered_of_assigns (fun _ _ => hready.clock.1) _)
    rw [hassociation]
    intro d hd
    obtain ⟨t, ht⟩ := AssocMap.mem_values.mp hd
    exact (hgather t d ht).2
  obtain ⟨arrives, hone, harrives, hin, hreach, hsender⟩ := h.arrives hready hl' hpoint hsent hfew
  have hmore := hsent.run harrives (by rw [hsender]; exact hfew)
  obtain ⟨l'', hl''⟩ : ∃ l'', l'' = Runs.run (Link.step si) l'
    (arrives.map fun d => .receive (.data d)) := ⟨_, rfl⟩
  rw [← hl''] at hmore hin hreach hsender
  rw [← hpoint] at hin
  obtain ⟨sack, hacks, hlt⟩ := hmore.acknowledges (by rw [hsender]; exact hfew)
    (by rw [hsender, hstate]; exact hready.state) (by rw [hsender]; exact hin) hreach
    (by rw [hsender]; exact hclock)
  refine ⟨arrives, sack, hone, ?_, ?_⟩
  · unfold exchange
    rw [Runs.along_append, Runs.along_append, Runs.run_append, ← hl', ← hl'']
    exact ⟨⟨hagain, harrives⟩, hacks⟩
  · unfold exchange
    rw [Runs.run_append, Runs.run_append, ← hl', ← hl'']
    rw [hsender, hpoint] at hlt
    exact hlt

/-- **A sender does not get stuck**: from every state of every run of a sender, its receiver and a
network that loses, repeats and reorders what it carries both ways, one exchange without losses moves
the ack point on, if the receiver takes the first chunk in flight. -/
theorem advances_of_honest {a b : AssociationInternal} (h : a.MeetsFresh b si)
    (hops : Runs.Along (Link.step si) (Honest si maxLen) (start a b) ops)
    (hready : (Runs.run (Link.step si) (start a b) ops).Ready si now later c)
    (hfew : (Runs.run (Link.step si) (start a b)
      (ops ++ [.send .t3Rtx, .send (.gather now)])).sender.assigned.length < 2 ^ 31) :
    ∃ arrives sack, List.length arrives ≤ 1 ∧
      Runs.Along (Link.step si) (Honest si maxLen) (start a b) (ops ++ exchange now later arrives sack) ∧
      sna32lt (Runs.run (Link.step si) (start a b) ops).sender.association.cumulativeTsnAckPoint
        (Runs.run (Link.step si) (start a b)
          (ops ++ exchange now later arrives sack)).sender.association.cumulativeTsnAckPoint = true := by
  rw [Runs.run_append] at hfew
  have hgrows : (Runs.run (Link.step si) (start a b) ops).sender.Grows
    (Runs.run (Link.step si) (Runs.run (Link.step si) (start a b) ops)
      [.send .t3Rtx, .send (.gather now)]).sender := grows_run _ _
  have hlen := hgrows.assigned.length_le
  have haccounted := (accounted_start h).run hops (by omega)
  obtain ⟨arrives, sack, hone, halong, hlt⟩ := haccounted.advances hready hfew
  refine ⟨arrives, sack, hone, (Runs.along_append ..).mpr ⟨hops, halong⟩, ?_⟩
  rw [Runs.run_append]
  exact hlt

/-- The first chunk of a message is lost, the second one arrives and is reported. -/
def firstLost : List LinkOp :=
  let second : ChunkPayloadData :=
    { tsn := 2, streamIdentifier := 1, endingFragment := true, userData := [3], payloadType := .binary }
  let gap : ChunkSelectiveAck :=
    { cumulativeTsnAck := 0, advertisedReceiverWindowCredit := 0xfffff
      gapAckBlocks := [{ start := 2, end_ := 2 }], duplicateTsn := [] }
  [.receive (.data second), .reply, .send (.sack 3 gap)]

theorem advances_firstLost :
    ∃ arrives sack, List.length arrives ≤ 1 ∧
      Runs.Along (Link.step 1) (Honest 1 16) (start cuttingFromOne awaitingOne)
        (threeSent ++ firstLost ++ exchange 5 7 arrives sack) ∧
      sna32lt (Runs.run (Link.step 1) (start cuttingFromOne awaitingOne)
          (threeSent ++ firstLost)).sender.association.cumulativeTsnAckPoint
        (Runs.run (Link.step 1) (start cuttingFromOne awaitingOne)
          (threeSent ++ firstLost ++
            exchange 5 7 arrives sack)).sender.association.cumulativeTsnAckPoint = true := by
  have hready : (Runs.run (Link.step 1) (start cuttingFromOne awaitingOne)
      (threeSent ++ firstLost)).Ready 1 5 7
      { tsn := 1, streamIdentifier := 1, beginningFragment := true, userData := [1, 2]
        payloadType := .binary, allInflight := 1, nsent := 1, missIndicator := 1 } :=
    { state := by decide +kernel
      first := by decide +kernel
      live := by decide +kernel
      fits := by decide +kernel
      clock := by decide +kernel
      takes := by decide +kernel
      inReach := by decide +kernel
      holdsInReach := by decide +kernel }
  exact advances_of_honest (cuttingFromOne_meetsFresh 1) (by decide +kernel) hready (by decide +kernel)

end Link

end Sctp
