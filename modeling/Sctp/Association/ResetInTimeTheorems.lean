import Sctp.Association.StreamTableTheorems

/-!
# When streams are reset

DATA looks at the requests that are kept each time `peer_last_tsn` moves on, a FORWARD TSN
only after it has moved.
-/

namespace Sctp

namespace AssociationInternal

variable {a a' : AssociationInternal}

/-! ## A look at the requests -/

theorem NoDueRequest.congr (h : a.NoDueRequest) (ha : a'.reconfigRequests = a.reconfigRequests)
    (hp : a'.peerLastTsn = a.peerLastTsn) : a'.NoDueRequest := by
  intro p hkept
  rw [ha] at hkept
  rw [hp]
  exact h p hkept

theorem noDueRequest_recheck (h : a.KeptByNumber) : a.recheckReconfigRequests.1.NoDueRequest := by
  intro p hp
  obtain ⟨k, hk⟩ := AssocMap.mem_values.mp hp
  rw [peerLastTsn_recheck]
  exact ((reconfigRequests_recheck h k p).mp hk).2

/-- Moving `peer_last_tsn` on ends with a look at the requests, unless it does not move. -/
theorem noDueRequest_advance (fuel : ℕ) (a : AssociationInternal) (reply : List Packet)
    (h : a.KeptByNumber)
    (hdue : a.NoDueRequest ∨ 0 < fuel ∧ (a.payloadQueue.pop (a.peerLastTsn + 1)).2 ≠ none) :
    (advancePeerLastTsn fuel a reply).1.NoDueRequest ∧
      (advancePeerLastTsn fuel a reply).1.KeptByNumber := by
  induction fuel generalizing a reply with
  | zero =>
    rcases hdue with hdue | hdue
    · exact ⟨hdue, h⟩
    · exact absurd hdue.1 (lt_irrefl 0)
  | succ fuel ih =>
    unfold advancePeerLastTsn
    split
    · rename_i q hpop
      rcases hdue with hdue | hdue
      · exact ⟨hdue.congr rfl rfl, h.congr rfl⟩
      · rw [hpop] at hdue
        exact absurd rfl hdue.2
    · rename_i q c hpop
      have hkept : ({ a with
          payloadQueue := q, peerLastTsn := a.peerLastTsn + 1 } : AssociationInternal).KeptByNumber :=
        h.congr rfl
      exact ih _ _ hkept.recheck (Or.inl (noDueRequest_recheck hkept))

/-- The common end of `handle_data` and `handle_forward_tsn`. -/
theorem noDueRequest_acknowledgement (sackImmediately : Bool) (h : a.KeptByNumber)
    (hq : a.payloadQueue.Ahead a.peerLastTsn) :
    (a.handlePeerLastTsnAndAcknowledgement sackImmediately).1.KeptByNumber ∧
      ((a.handlePeerLastTsnAndAcknowledgement sackImmediately).1.NoDueRequest ↔
        a.peerLastTsn + 1 ∈ a.payloadQueue.chunkMap ∨ a.NoDueRequest) := by
  have hack : ∀ b : AssociationInternal, (b.triggerAck sackImmediately).peerLastTsn = b.peerLastTsn :=
    fun b => congrArg Prod.snd (received_ignoresTriggers.triggerAck b sackImmediately)
  have hmoved : a.peerLastTsn + 1 ∈ a.payloadQueue.chunkMap ∨ a.NoDueRequest →
      (a.handlePeerLastTsnAndAcknowledgement sackImmediately).1.NoDueRequest ∧
        (a.handlePeerLastTsnAndAcknowledgement sackImmediately).1.KeptByNumber := by
    intro hdue
    have hloop := noDueRequest_advance a.payloadQueue.sorted.length a [] h (by
      rcases hdue with hnext | hdue
      · right
        obtain ⟨c, q, hpop, _⟩ := hq.pop hnext
        rw [hpop]
        refine ⟨List.length_pos_of_mem ((hq.mem_iff _).mpr hnext), fun hno => by cases hno⟩
      · exact Or.inl hdue)
    exact ⟨hloop.1.congr (reconfigRequests_ignoresTriggers.triggerAck _ _) (hack _),
      hloop.2.congr (reconfigRequests_ignoresTriggers.triggerAck _ _)⟩
  by_cases hnext : a.peerLastTsn + 1 ∈ a.payloadQueue.chunkMap
  · exact ⟨(hmoved (Or.inl hnext)).2, fun _ => Or.inl hnext, fun _ => (hmoved (Or.inl hnext)).1⟩
  · have hstay : (a.handlePeerLastTsnAndAcknowledgement sackImmediately).1 =
        a.triggerAck sackImmediately := by
      unfold handlePeerLastTsnAndAcknowledgement
      have hloop : ∀ fuel, advancePeerLastTsn fuel a [] = (a, []) := by
        intro fuel
        cases fuel with
        | zero => rfl
        | succ fuel =>
          unfold advancePeerLastTsn
          rw [hq.pop_of_notMem hnext]
      rw [hloop]
    rw [hstay]
    refine ⟨h.congr (reconfigRequests_ignoresTriggers.triggerAck _ _), fun hdue => Or.inr ?_, ?_⟩
    · exact hdue.congr (reconfigRequests_ignoresTriggers.triggerAck _ _).symm (hack a).symm
    · rintro (hnext' | hdue)
      · exact absurd hnext' hnext
      · exact hdue.congr (reconfigRequests_ignoresTriggers.triggerAck _ _) (hack a)

/-! ## Performing requests in time -/

/-- Requests are performed, or kept under their number until they are due. -/
structure Deferring (a : AssociationInternal) : Prop where
  receiving : a.Receiving
  keptByNumber : a.KeptByNumber
  noDueRequest : a.NoDueRequest

theorem Deferring.handleReconfigParam (h : a.Deferring) (raw : Param) :
    (a.handleReconfigParam raw).1.Deferring := by
  have hframe := received_of_apartFromStreams (apartFromStreams_handleReconfigParam a raw)
  have hpoint : (a.handleReconfigParam raw).1.peerLastTsn = a.peerLastTsn := congrArg Prod.snd hframe
  refine ⟨h.receiving.of_received hframe, ?_, ?_⟩
  · intro k q hq
    rcases reconfigRequests_handleReconfigParam hq with hbefore | ⟨hnumber, _⟩
    · exact h.keptByNumber k q hbefore
    · exact hnumber
  · intro q hq
    obtain ⟨k, hk⟩ := AssocMap.mem_values.mp hq
    rw [hpoint]
    rcases reconfigRequests_handleReconfigParam hk with hbefore | ⟨_, _, hnot⟩
    · exact h.noDueRequest q (AssocMap.mem_values_of_lookup hbefore)
    · exact hnot

theorem Deferring.handleReconfig (h : a.Deferring) (c : ChunkReconfig) :
    (a.handleReconfig c).1.Deferring :=
  handleReconfig_invariant (I := Deferring) (fun _ raw _ ha => ha.handleReconfigParam raw) h

theorem Deferring.congr (h : a.Deferring) (ha : a'.received = a.received)
    (hr : a'.reconfigRequests = a.reconfigRequests) : a'.Deferring where
  receiving := h.receiving.of_received ha
  keptByNumber := h.keptByNumber.congr hr
  noDueRequest := h.noDueRequest.congr hr (congrArg Prod.snd ha)

theorem Deferring.handleData (h : a.Deferring) (d : ChunkPayloadData) :
    (a.handleData d).1.Deferring := by
  have hreceiving : (a.handleData d).1.Receiving := (h.receiving.handleData d).1
  obtain ⟨b, hb, heq | heq⟩ := handleData_takesIn a d
  · rw [heq] at hreceiving ⊢
    exact ⟨hreceiving, h.keptByNumber.congr hb.reconfigRequests,
      h.noDueRequest.congr hb.reconfigRequests hb.peerLastTsn⟩
  · obtain ⟨hkept, hdue⟩ := noDueRequest_acknowledgement d.immediateSack
      (h.keptByNumber.congr hb.reconfigRequests) (hb.queue h.receiving)
    rw [heq] at hreceiving ⊢
    exact ⟨hreceiving, hkept,
      hdue.mpr (Or.inr (h.noDueRequest.congr hb.reconfigRequests hb.peerLastTsn))⟩

/-- A FORWARD TSN looks at the requests only if a chunk waits behind its new point. -/
theorem Deferring.handleForwardTsn (h : a.Deferring) (c : ChunkForwardTsn) :
    (a.handleForwardTsn c).1.KeptByNumber ∧
      ((a.handleForwardTsn c).1.NoDueRequest ↔ a.RechecksRequests (.forwardTsn c)) := by
  rcases forwardTsn_cases a c with hbehind | ⟨huse, hahead⟩
  · -- the point does not move, so nothing has become due
    have hquiet : a.RechecksRequests (.forwardTsn c) := by
      intro huse hlt
      rcases hbehind with hno | hle
      · rw [huse] at hno
        cases hno
      · rw [sna32lt_iff] at hlt
        rw [sna32lte_iff] at hle
        have hne : a.peerLastTsn ≠ c.newCumulativeTsn := by
          intro heq
          rw [heq, Serial.dist_self] at hlt
          exact absurd hlt.1 (lt_irrefl 0)
        have hcomm := Serial.dist_comm_of_ne hne
        omega
    have hsame : (a.handleForwardTsn c).1.reconfigRequests = a.reconfigRequests ∧
        (a.handleForwardTsn c).1.peerLastTsn = a.peerLastTsn := by
      rcases handleForwardTsn_of_behind hbehind with heq | heq
      · rw [heq]
        exact ⟨rfl, rfl⟩
      · rw [heq]
        exact ⟨rfl, rfl⟩
    exact ⟨h.keptByNumber.congr hsame.1,
      ⟨fun _ => hquiet, fun _ => h.noDueRequest.congr hsame.1 hsame.2⟩⟩
  · rw [handleForwardTsn_of_ahead huse hahead]
    obtain ⟨hqueue, hslides⟩ := forwardPeerLastTsn_slides c.newCumulativeTsn a.payloadQueue
      a.peerLastTsn h.receiving.queue
    revert hqueue hslides
    generalize forwardPeerLastTsn c.newCumulativeTsn a.payloadQueue a.peerLastTsn = r
    intro hqueue hslides
    have hframe := received_ignoresStreams.forwardStreams
      { a with payloadQueue := r.1, peerLastTsn := r.2 } c
    have hrequests := reconfigRequests_ignoresStreams.forwardStreams
      { a with payloadQueue := r.1, peerLastTsn := r.2 } c
    revert hframe hrequests
    generalize forwardStreams _ _ = b
    intro hframe hrequests
    have hq : b.payloadQueue = r.1 := congrArg Prod.fst hframe
    have hp : b.peerLastTsn = r.2 := congrArg Prod.snd hframe
    have hreconfig : b.reconfigRequests = a.reconfigRequests := hrequests
    have hend := noDueRequest_acknowledgement (a := b) false (h.keptByNumber.congr hreconfig)
      (by rw [hq, hp]; exact hqueue)
    refine ⟨hend.1, hend.2.trans ?_⟩
    show (b.peerLastTsn + 1 ∈ b.payloadQueue.chunkMap ∨ b.NoDueRequest) ↔
      (a.useForwardTsn = true → sna32lt a.peerLastTsn c.newCumulativeTsn = true →
        c.newCumulativeTsn + 1 ∈ a.payloadQueue.chunkMap ∨
          ∀ p ∈ a.reconfigRequests.values, sna32lte p.senderLastTsn c.newCumulativeTsn = false)
    unfold NoDueRequest
    rw [hreconfig]
    -- the point is where the chunk says, or where it was
    by_cases hlt : sna32lt a.peerLastTsn c.newCumulativeTsn = true
    · rw [if_pos hlt] at hslides
      have hpoint : b.peerLastTsn = c.newCumulativeTsn :=
        hp.trans (hslides.point_eq.trans (Serial.add_dist _ _))
      -- the next TSN is held afterwards if it was held before
      have hnext : b.peerLastTsn + 1 ∈ b.payloadQueue.chunkMap ↔
          c.newCumulativeTsn + 1 ∈ a.payloadQueue.chunkMap := by
        have hheld := hslides.mem_held (c.newCumulativeTsn + 1)
        have hdist : Serial.dist a.peerLastTsn (c.newCumulativeTsn + 1) =
            Serial.dist a.peerLastTsn c.newCumulativeTsn + 1 := by
          rw [sna32lt_iff] at hlt
          have hone := PayloadQueue.Ahead.dist_next c.newCumulativeTsn
          rw [Serial.dist_add (b := c.newCumulativeTsn) (by omega), hone]
        rw [hpoint, hq]
        refine hheld.trans ⟨?_, ?_⟩
        · rintro ⟨hmem | hmem, _⟩
          · exact hmem
          · exact absurd hmem List.not_mem_nil
        · intro hmem
          refine ⟨Or.inl hmem, ?_⟩
          show _ < Serial.dist a.peerLastTsn (c.newCumulativeTsn + 1)
          omega
      rw [hnext, hpoint]
      exact ⟨fun hend _ _ => hend, fun hend => hend huse hlt⟩
    · rw [if_neg hlt] at hslides
      have hpoint : b.peerLastTsn = a.peerLastTsn :=
        hp.trans (hslides.point_eq.trans (by simp [PayloadQueue.receiveWindow]))
      rw [hpoint]
      exact ⟨fun _ _ hno => absurd hno hlt, fun _ => Or.inr h.noDueRequest⟩

theorem receiverStep_quiet {op : ReceiverOp} (hop : op = .accept ∨ ∃ si n, op = .read si n) :
    (a.receiverStep op).received = a.received ∧
      (a.receiverStep op).reconfigRequests = a.reconfigRequests := by
  rcases hop with rfl | ⟨si, n, rfl⟩
  · exact ⟨received_ignoresStreams.acceptStream a,
      reconfigRequests_ignoresStreams.acceptStream a⟩
  · exact ⟨received_ignoresStreams.modifyStream a si _,
      reconfigRequests_ignoresStreams.modifyStream a si _⟩

/-- One operation: it performs in time what it has to, but for a FORWARD TSN that does not look. -/
theorem Deferring.step (h : a.Deferring) (op : ReceiverOp) :
    (a.receiverStep op).KeptByNumber ∧ (a.ResetsInTime op ↔ a.RechecksRequests op) := by
  have hkeeps : ∀ {op'}, (a.receiverStep op').Deferring → a.RechecksRequests op' →
      (a.receiverStep op').KeptByNumber ∧ (a.ResetsInTime op' ↔ a.RechecksRequests op') :=
    fun hkept hrechecks =>
      ⟨hkept.keptByNumber, fun _ => hrechecks, fun _ => hkept.noDueRequest⟩
  cases op with
  | data d => exact hkeeps (h.handleData d) trivial
  | forwardTsn c => exact h.handleForwardTsn c
  | reconfig c => exact hkeeps (h.handleReconfig c) trivial
  | accept =>
    obtain ⟨hframe, hrequests⟩ := @receiverStep_quiet a .accept (Or.inl rfl)
    exact hkeeps (h.congr hframe hrequests) trivial
  | read si n =>
    obtain ⟨hframe, hrequests⟩ := @receiverStep_quiet a (.read si n) (Or.inr ⟨si, n, rfl⟩)
    exact hkeeps (h.congr hframe hrequests) trivial

/-- In every run from an association that has received nothing, deferred requests are performed
in time exactly if no FORWARD TSN goes over the last TSN of one and stops there. -/
theorem resetsInTime_iff_rechecksRequests (a : AssociationInternal) (h : a.payloadQueue = {})
    (hnone : a.reconfigRequests = ∅) (ops : List ReceiverOp) :
    Runs.Along receiverStep ResetsInTime a ops ↔ Runs.Along receiverStep RechecksRequests a ops := by
  have hstart : a.Deferring := by
    refine ⟨Receiving.new h, ?_, ?_⟩
    · intro k p hp
      rw [hnone, AList.lookup_empty] at hp
      cases hp
    · intro p hp
      rw [hnone] at hp
      exact absurd hp List.not_mem_nil
  exact Runs.along_iff_of_invariant (R := fun _ _ => True) (I := Deferring)
    (fun a op _ hdue ha => ⟨(ha.receiving.step op).1, (ha.step op).1, hdue⟩)
    (fun a op _ ha => (ha.step op).2) hstart (Runs.along_true a ops)

/-- A request that waits for TSN 2 is performed by the DATA that follows a FORWARD TSN. -/
theorem resetsInTime_dataBehind :
    let ops : List ReceiverOp :=
      [.data { tsn := 3, beginningFragment := true, endingFragment := true, userData := [1] },
       .reconfig { paramA := some (.outgoingResetRequest
        { reconfigRequestSequenceNumber := 7, senderLastTsn := 2, streamIdentifiers := [0] }) },
       .forwardTsn { newCumulativeTsn := 2, streams := [] }]
    Runs.Along receiverStep ResetsInTime justEstablished ops := by
  intro ops
  refine (resetsInTime_iff_rechecksRequests justEstablished rfl rfl ops).mpr
    ⟨trivial, trivial, fun _ _ => Or.inl ?_, trivial⟩
  decide +kernel

/-- The FORWARD TSN reaches the TSN that a request waits for, and nothing follows. -/
theorem not_resetsInTime_nothingBehind :
    ¬ ∀ (a : AssociationInternal), a.payloadQueue = {} → a.reconfigRequests = ∅ →
      ∀ ops : List ReceiverOp, Runs.Along receiverStep ResetsInTime a ops := by
  intro h
  have hrun := h justEstablished rfl rfl
    [.reconfig { paramA := some (.outgoingResetRequest
      { reconfigRequestSequenceNumber := 7, senderLastTsn := 2, streamIdentifiers := [0] }) },
     .forwardTsn { newCumulativeTsn := 2, streams := [] }]
  have hlast := hrun.2.1
  exact absurd hlast (by unfold ResetsInTime NoDueRequest; decide +kernel)

end AssociationInternal

end Sctp
