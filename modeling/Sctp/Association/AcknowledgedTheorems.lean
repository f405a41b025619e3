import Sctp.Association.DeliveryTheorems
import Sctp.Association.ReleaseTheorems

/-!
# What is not in flight any more has arrived

The ack point of a sender follows the SACKs of its receiver, and what a SACK acknowledges has been
handed to a stream. So what a sender does not keep any more can be read.
-/

namespace Sctp

namespace AssociationInternal

variable {a : AssociationInternal} {op : SenderOp}

/-- Only a SACK moves the ack point, to where the SACK says. -/
theorem ackPoint_senderStep (hop : a.InBounds op) :
    (a.senderStep op).cumulativeTsnAckPoint = a.cumulativeTsnAckPoint ∨
      ∃ now d, op = .sack now d ∧ (a.senderStep op).cumulativeTsnAckPoint = d.cumulativeTsnAck := by
  cases op with
  | openStream si ppi =>
    obtain ⟨objects, streams, heq⟩ := a.openStream_eq si ppi
    exact Or.inl (congrArg cumulativeTsnAckPoint heq :)
  | setReliabilityParams r unordered relType relVal => exact Or.inl rfl
  | write r p ppi =>
    obtain ⟨flags, pendingQueue, objects, heq⟩ := a.writeSctp_eq r p ppi
    exact Or.inl (congrArg cumulativeTsnAckPoint heq :)
  | shutdownStream r how =>
    obtain ⟨flags, pendingQueue, objects, heq⟩ := a.shutdownStream_eq r how
    exact Or.inl (congrArg cumulativeTsnAckPoint heq :)
  | push c => exact Or.inl rfl
  | gather now => exact Or.inl (a.cumulativeTsnAckPoint_gatherOutbound now)
  | t3Rtx => exact Or.inl (congrArg cumulativeTsnAckPoint a.onT3RtxTimeout_frame :)
  | sack now d =>
    by_cases hreads : a.readsSack d = true
    · exact Or.inr ⟨now, d, rfl, cumulativeTsnAckPoint_handleSack hreads hop.1⟩
    · refine Or.inl ?_
      show (a.handleSack now d).1.cumulativeTsnAckPoint = _
      rw [handleSack_of_not_reads (by simpa using hreads)]
  | shutdownChunk =>
    obtain ⟨state, willSendShutdownAck, heq⟩ := a.handleShutdown_eq
    exact Or.inl (congrArg cumulativeTsnAckPoint heq :)
  | shutdown =>
    obtain ⟨state, willSendShutdown, heq⟩ := a.shutdown_eq
    exact Or.inl (congrArg cumulativeTsnAckPoint heq :)

/-- All TSNs behind the start, up to `t`, have been accepted. -/
structure Covers (start : U32) (accepted : List U32) (t : U32) : Prop where
  near : Serial.dist start t < 2 ^ 31
  accepted : ∀ x, 0 < Serial.dist start x → Serial.dist start x ≤ Serial.dist start t → x ∈ accepted

variable {start t : U32} {accepted accepted' : List U32}

theorem Covers.mono (h : Covers start accepted t) (hsub : ∀ x ∈ accepted, x ∈ accepted') :
    Covers start accepted' t := ⟨h.near, fun x hpos hle => hsub x (h.accepted x hpos hle)⟩

theorem Receipt.covers (h : Receipt start accepted a) : Covers start accepted a.peerLastTsn where
  near := h.full.near
  accepted x hpos hle := by
    rcases (h.full.seen_iff x).mp (Or.inr hle) with rfl | hin
    · rw [Serial.dist_self] at hpos
      omega
    · exact hin

end AssociationInternal

namespace Link

open AssociationInternal SendLog ReadLog

variable {si : U16} {maxLen : ℕ} {first : U32} {l : Link} {op : LinkOp} {ops : List LinkOp}

/-- What the SACKs and the ack point cover has been accepted. -/
structure Truthful (si : U16) (maxLen : ℕ) (first : U32) (l : Link) : Prop where
  records : Records si maxLen (first + 1) l.sender
  receipt : Receipt first l.receiver.accepted l.receiver.association
  sacks : ∀ d ∈ l.sacks, Covers first l.receiver.accepted d.cumulativeTsnAck
  ackPoint : Covers first l.receiver.accepted l.sender.association.cumulativeTsnAckPoint

/-- **What one operation keeps.** -/
theorem Truthful.step (h : Truthful si maxLen first l) (hop : l.Permits si maxLen op)
    (hgenuine : l.Genuine op) (hfew : l.sender.assigned.length < 2 ^ 31) :
    Truthful si maxLen first (l.step si op) := by
  cases op with
  | send op =>
    have hpoint : Covers first l.receiver.accepted
        (l.sender.association.senderStep op).cumulativeTsnAckPoint := by
      have hbounds : l.sender.association.InBounds op := hop.1.1
      rcases ackPoint_senderStep hbounds with hsame | ⟨now, d, rfl, hsack⟩
      · rw [hsame]
        exact h.ackPoint
      · rw [hsack]
        exact h.sacks d hgenuine
    exact ⟨h.records.step hop, h.receipt, h.sacks, hpoint⟩
  | receive op =>
    have hsub : ∀ x ∈ l.receiver.accepted,
        x ∈ l.receiver.accepted ++ l.receiver.association.handedOver op :=
      fun x hx => List.mem_append_left _ hx
    exact ⟨h.records, h.receipt.step (hop.arrivesNear h.records hfew),
      fun d hd => (h.sacks d hd).mono hsub, h.ackPoint.mono hsub⟩
  | reply =>
    refine ⟨h.records, h.receipt.createSelectiveAckChunk, fun d hd => ?_, h.ackPoint⟩
    rcases List.mem_append.mp hd with hold | hnew
    · exact h.sacks d hold
    · rw [List.mem_singleton.mp hnew]
      exact h.receipt.covers

theorem Truthful.run (h : Truthful si maxLen first l)
    (hops : Runs.Along (Link.step si) (fun l op => l.Permits si maxLen op ∧ l.Genuine op) l ops)
    (hfew : (Runs.run (Link.step si) l ops).sender.assigned.length < 2 ^ 31) :
    Truthful si maxLen first (Runs.run (Link.step si) l ops) := by
  induction ops generalizing l with
  | nil => exact h
  | cons op ops ih =>
    have hgrows := (records_run h.records (Runs.along_mono (fun _ _ hop => hop.1) hops)).2
    have hlen := hgrows.assigned.length_le
    exact ih (h.step hops.1.1 hops.1.2 (by omega)) hops.2 hfew

theorem truthful_start {a b : AssociationInternal} (h : a.MeetsFresh b si) :
    Truthful si maxLen b.peerLastTsn (start a b) where
  records := by
    rw [h.firstTsn]
    exact records_of_meetsFresh h
  receipt := Receipt.new h.payloadQueue
  sacks d hd := absurd hd List.not_mem_nil
  ackPoint := by
    have hpoint : a.cumulativeTsnAckPoint = b.peerLastTsn := by
      have hnext := h.fresh.myNextTsn
      rw [← h.firstTsn] at hnext
      exact ((BitVec.add_left_inj 1).mp hnext).symm
    show Covers b.peerLastTsn [] a.cumulativeTsnAckPoint
    rw [hpoint]
    refine ⟨?_, fun x hpos hle => ?_⟩
    · rw [Serial.dist_self]
      decide
    · rw [Serial.dist_self] at hle
      omega

theorem dist_after_after (base : U32) {k m : ℕ} (hle : k ≤ m) (hm : m < 2 ^ 32) :
    Serial.dist (base.after k) (base.after m) = m - k := by
  rw [show base.after m = (base.after k).after (m - k) by rw [after_add, Nat.add_sub_cancel' hle]]
  exact dist_after _ (by omega)

/-- The ack point is `p` behind the start, and `n` chunks are in flight behind it. -/
theorem Truthful.exists_inflight (h : Truthful si maxLen first l)
    (hfew : l.sender.assigned.length < 2 ^ 31) :
    ∃ n p, n < 2 ^ 31 ∧ l.sender.association.Sending n ∧
      l.sender.association.cumulativeTsnAckPoint = first.after p ∧ p + n = l.sender.assigned.length := by
  obtain ⟨n, hn, hsending⟩ := h.records.transmitting.sending
  obtain ⟨p, hp⟩ : ∃ p, p = Serial.dist first l.sender.association.cumulativeTsnAckPoint := ⟨_, rfl⟩
  have hnear := h.ackPoint.near
  have hpoint : l.sender.association.cumulativeTsnAckPoint = first.after p := by
    rw [hp, after_dist]
  have hnext : first.after (p + (n + 1)) = first.after (1 + l.sender.assigned.length) := by
    rw [← after_add, ← hpoint, ← hsending.next, h.records.nextTsn]
    exact after_add first 1 _
  have hlen := congrArg (Serial.dist first) hnext
  rw [dist_after first (by omega), dist_after first (by omega)] at hlen
  exact ⟨n, p, hn, hsending, hpoint, by omega⟩

/-- A chunk that has been given a TSN and is not in flight lies at or before the ack point. -/
theorem Truthful.mem_accepted (h : Truthful si maxLen first l) (hfew : l.sender.assigned.length < 2 ^ 31)
    {c : ChunkPayloadData} (hc : c ∈ l.sender.assigned)
    (hgone : c.tsn ∉ l.sender.association.inflightQueue.chunkMap) : c.tsn ∈ l.receiver.accepted := by
  obtain ⟨i, hi⟩ := List.mem_iff_getElem?.mp hc
  have hlt := (List.getElem?_eq_some_iff.mp hi).1
  obtain ⟨n, p, hn, hsending, hpoint, hlen⟩ := h.exists_inflight hfew
  have htsn : c.tsn = first.after (1 + i) := by
    rw [h.records.tsns i c hi]
    exact after_add first 1 i
  rw [hsending.window.mem_window (by omega), hpoint, htsn] at hgone
  have hdist : Serial.dist first (first.after (1 + i)) = 1 + i := dist_after first (by omega)
  rw [htsn]
  refine h.ackPoint.accepted _ (by omega) ?_
  rw [hpoint, hdist, dist_after first (by omega)]
  by_contra hbeyond
  have hahead := dist_after_after first (k := p) (m := 1 + i) (by omega) (by omega)
  exact hgone (by omega)

theorem Truthful.accepted (h : Truthful si maxLen first l) (hfew : l.sender.assigned.length < 2 ^ 31)
    {k : ℕ} (hk : l.sender.Settled si k) : Accepted si l.sender l.receiver k where
  sent := hk.sent
  accepted c hc := h.mem_accepted hfew
    (List.mem_of_mem_filter (List.mem_of_mem_take hc)) (hk.acknowledged c hc)

/-- A drained sender has sent all of the messages, and none of them is in flight. -/
theorem settled_of_drained {s : SendLog} {blocks : List (List ChunkPayloadData)}
    (hsent : SentIn si s blocks) (h : s.Drained) : s.Settled si s.messages.length where
  sent := by
    have hall := congrArg (fun l => l.flatten.length) (hsent.all h.pendingQueue)
    rw [← List.map_flatten, List.length_map, hsent.flatten] at hall
    rw [chunksOfFirst_eq, List.take_of_length_le (by rw [List.length_map]), ← hall]
  acknowledged c _ := by
    rw [h.inflightQueue]
    exact AList.notMem_empty _

/-- **What is acknowledged is delivered**: in every run of a sender, its receiver and a network that
loses, repeats and reorders what it carries both ways, what the sender does not keep in flight any
more can be read. So once it has nothing left to send, the reader gets all that was written. -/
theorem deliversSettled_of_run {a b : AssociationInternal} (h : a.MeetsFresh b si)
    (hops : Runs.Along (Link.step si) (fun l op => l.Permits si maxLen op ∧ l.Genuine op) (start a b) ops)
    (hfew : (Runs.run (Link.step si) (start a b) ops).sender.assigned.length < 2 ^ 31) :
    (Runs.run (Link.step si) (start a b) ops).receiver.DeliversSettled si maxLen
      (Runs.run (Link.step si) (start a b) ops).sender := by
  have hpermits := Runs.along_mono (fun _ _ hop => hop.1) hops
  have htruthful := (truthful_start h).run hops hfew
  obtain ⟨blocks, hsent⟩ := htruthful.records.exists_blocks
  have hfollows := follows_run (follows_of_meetsFresh h) (truthful_start h).records hpermits (.refl _)
    htruthful.records hsent hfew
  refine ⟨fun k hk n hn => ?_, fun hdrained n hn => ?_⟩
  · exact (hfollows.readAfter_of_accepted htruthful.records hsent hfew (htruthful.accepted hfew hk) hn).1
  · have hk := settled_of_drained hsent hdrained
    obtain ⟨hfirst, hall⟩ := hfollows.readAfter_of_accepted htruthful.records hsent hfew
      (htruthful.accepted hfew hk) hn
    rw [List.take_of_length_le (Nat.le_refl _)] at hfirst
    exact hall.eq_of_length_le hfirst.length_le

/-- The chunk of stream 2 arrives, too; a SACK for all of it comes in front of one from before. -/
def acknowledges : List LinkOp :=
  let ofStream2 : ChunkPayloadData :=
    { tsn := 1, streamIdentifier := 2, beginningFragment := true, endingFragment := true
      userData := [9], payloadType := .binary }
  let early : ChunkSelectiveAck :=
    { cumulativeTsnAck := 0xfffffffe, advertisedReceiverWindowCredit := 0x100000, gapAckBlocks := []
      duplicateTsn := [] }
  let late : ChunkSelectiveAck :=
    { cumulativeTsnAck := 2, advertisedReceiverWindowCredit := 0xfffff, gapAckBlocks := []
      duplicateTsn := [] }
  [.receive (.data ofStream2), .reply, .send .t3Rtx, .send (.gather 5), .send (.sack 9 late),
    .send (.sack 9 early)]

theorem deliversSettled_drained :
    let l := Runs.run (Link.step 1) (start cutting awaiting)
      (threeSent ++ .reply :: backwards ++ acknowledges)
    l.sender.Drained ∧ l.receiver.DeliversSettled 1 16 l.sender :=
  ⟨⟨by decide +kernel, AList.ext (by decide +kernel)⟩,
    deliversSettled_of_run (cutting_meetsFresh 1) (by decide +kernel) (by decide +kernel)⟩

end Link

end Sctp
