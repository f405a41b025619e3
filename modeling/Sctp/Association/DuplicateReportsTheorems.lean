import Sctp.Association.DuplicateReports
import Sctp.Association.StreamTableTheorems

/-!
# No duplicate is ever reported

`handle_data` only pushes what `can_push` lets through, and that is what `push` would not record.
-/

namespace Sctp

namespace PayloadQueue

variable {q : PayloadQueue}

@[simp] theorem dupTsn_pushNoCheck (q : PayloadQueue) (c : ChunkPayloadData) :
    (q.pushNoCheck c).dupTsn = q.dupTsn := rfl

@[simp] theorem dupTsn_pop (q : PayloadQueue) (t : U32) : (q.pop t).1.dupTsn = q.dupTsn := by
  unfold PayloadQueue.pop
  split
  · rfl
  · split
    · split
      · rfl
      · rfl
    · rfl

/-- What can be pushed is not recorded. -/
theorem dupTsn_push {d : ChunkPayloadData} {base : U32} (h : q.canPush d base = true) :
    (q.push d base).1.dupTsn = q.dupTsn := by
  rw [PayloadQueue.Ahead.push_eq h, dupTsn_pushNoCheck]

end PayloadQueue

namespace AssociationInternal

variable {a a' : AssociationInternal}

/-! ## Receiving -/

theorem dupTsn_of_received (h : a'.received = a.received) :
    a'.payloadQueue.dupTsn = a.payloadQueue.dupTsn :=
  congrArg (fun r : PayloadQueue × U32 => r.1.dupTsn) h

theorem dupTsn_advance (fuel : ℕ) (a : AssociationInternal) (reply : List Packet) :
    (advancePeerLastTsn fuel a reply).1.payloadQueue.dupTsn = a.payloadQueue.dupTsn := by
  induction fuel generalizing a reply with
  | zero => rfl
  | succ fuel ih =>
    have hpopped := PayloadQueue.dupTsn_pop a.payloadQueue (a.peerLastTsn + 1)
    unfold advancePeerLastTsn
    split
    · rename_i q hpop
      rw [hpop] at hpopped
      exact hpopped
    · rename_i q c hpop
      rw [hpop] at hpopped
      have hrecheck := dupTsn_of_received (received_of_apartFromStreams
        (apartFromStreams_recheckReconfigRequests
          { a with payloadQueue := q, peerLastTsn := a.peerLastTsn + 1 }))
      exact (ih _ _).trans (hrecheck.trans hpopped)

theorem dupTsn_acknowledgement (a : AssociationInternal) (sackImmediately : Bool) :
    (a.handlePeerLastTsnAndAcknowledgement sackImmediately).1.payloadQueue.dupTsn =
      a.payloadQueue.dupTsn :=
  (dupTsn_of_received (received_ignoresTriggers.triggerAck _ sackImmediately)).trans
    (dupTsn_advance _ a [])

theorem dupTsn_handleData (a : AssociationInternal) (d : ChunkPayloadData) :
    (a.handleData d).1.payloadQueue.dupTsn = a.payloadQueue.dupTsn := by
  cases hover : a.handsOver d with
  | true =>
    obtain ⟨r, _, heq⟩ := handleData_of_handsOver hover
    unfold handsOver at hover
    rw [Bool.and_eq_true] at hover
    have hmodify := dupTsn_of_received (received_ignoresStreams.modifyStream
      { (a.getOrCreateStream d.streamIdentifier).1 with
        payloadQueue := (a.payloadQueue.push d a.peerLastTsn).1 }
      d.streamIdentifier fun s => (s.handleData d).1)
    rw [heq, dupTsn_acknowledgement]
    exact hmodify.trans (PayloadQueue.dupTsn_push hover.1)
  | false =>
    obtain ⟨b, hb, _, heq⟩ := handleData_of_not_handsOver hover
    rcases heq with heq | heq
    · rw [heq]
      exact dupTsn_of_received hb
    · rw [heq, dupTsn_acknowledgement]
      exact dupTsn_of_received hb

theorem dupTsn_forwardPeerLastTsn (newCumulativeTsn : U32) (q : PayloadQueue) (peerLastTsn : U32) :
    (forwardPeerLastTsn newCumulativeTsn q peerLastTsn).1.dupTsn = q.dupTsn := by
  induction q, peerLastTsn using forwardPeerLastTsn.induct newCumulativeTsn with
  | case1 q peerLastTsn hlt ih =>
    rw [forwardPeerLastTsn, if_pos hlt, ih, PayloadQueue.dupTsn_pop]
  | case2 q peerLastTsn hlt =>
    rw [forwardPeerLastTsn, if_neg hlt]

theorem dupTsn_handleForwardTsn (a : AssociationInternal) (c : ChunkForwardTsn) :
    (a.handleForwardTsn c).1.payloadQueue.dupTsn = a.payloadQueue.dupTsn := by
  rcases forwardTsn_cases a c with hbehind | ⟨huse, hahead⟩
  · rcases handleForwardTsn_of_behind hbehind with heq | heq
    · rw [heq]
    · rw [heq]
  · rw [handleForwardTsn_of_ahead huse hahead, dupTsn_acknowledgement]
    have hstreams := fun b => dupTsn_of_received (received_ignoresStreams.forwardStreams b c)
    rw [hstreams]
    exact dupTsn_forwardPeerLastTsn c.newCumulativeTsn a.payloadQueue a.peerLastTsn

/-- Nothing that arrives is recorded. -/
theorem dupTsn_receiverStep (a : AssociationInternal) (op : ReceiverOp) :
    (a.receiverStep op).payloadQueue.dupTsn = a.payloadQueue.dupTsn := by
  have hstreams : ∀ b : AssociationInternal, b.apartFromStreams = a.apartFromStreams →
      b.payloadQueue.dupTsn = a.payloadQueue.dupTsn := by
    intro b hb
    exact dupTsn_of_received (received_of_apartFromStreams hb)
  cases op with
  | data d => exact a.dupTsn_handleData d
  | forwardTsn c => exact a.dupTsn_handleForwardTsn c
  | reconfig c => exact hstreams _ (apartFromStreams_handleReconfig a c)
  | accept => exact hstreams _ (apartFromStreams_ignoresStreams.acceptStream a)
  | read si bufLen => exact hstreams _ (apartFromStreams_ignoresStreams.modifyStream a si _)

/-! ## Runs -/

theorem dupTsn_arrivalStep (h : a.payloadQueue.dupTsn = []) (op : ArrivalOp) :
    (a.arrivalStep op).payloadQueue.dupTsn = [] ∧ a.reported op = [] := by
  cases op with
  | receive op => exact ⟨(a.dupTsn_receiverStep op).trans h, rfl⟩
  | sack => exact ⟨rfl, h⟩

theorem duplicates_eq_nil_iff (a : AssociationInternal) (op : ArrivalOp) :
    a.duplicates op = [] ↔ a.ArrivesFirst op := by
  unfold duplicates ArrivesFirst
  split
  · cases isDuplicate _ _ <;> simp
  · simp

/-- **When the SACKs report the duplicates**: when there are none. -/
theorem reportsDuplicates_iff (h : a.payloadQueue.dupTsn = []) (ops : List ArrivalOp) :
    a.ReportsDuplicates ops ↔ Runs.Along arrivalStep ArrivesFirst a ops := by
  have hquiet : (Runs.outputs arrivalStep reported a ops).flatten ++
      (Runs.run arrivalStep a ops).payloadQueue.dupTsn = [] := by
    induction ops generalizing a with
    | nil => exact h
    | cons op ops ih =>
      obtain ⟨hnext, hnone⟩ := dupTsn_arrivalStep h op
      show (a.reported op ++ (Runs.outputs arrivalStep reported (a.arrivalStep op) ops).flatten) ++ _ = []
      rw [hnone]
      exact ih hnext
  have hduplicates : (Runs.outputs arrivalStep duplicates a ops).flatten = [] ↔
      Runs.Along arrivalStep ArrivesFirst a ops := by
    clear h hquiet
    induction ops generalizing a with
    | nil => exact ⟨fun _ => trivial, fun _ => rfl⟩
    | cons op ops ih =>
      show a.duplicates op ++ (Runs.outputs arrivalStep duplicates (a.arrivalStep op) ops).flatten = []
        ↔ a.ArrivesFirst op ∧ Runs.Along arrivalStep ArrivesFirst (a.arrivalStep op) ops
      rw [List.append_eq_nil_iff, duplicates_eq_nil_iff, ih]
  unfold ReportsDuplicates
  rw [hquiet, ← hduplicates]
  exact eq_comm

/-- A chunk that arrives twice, and a SACK. -/
def arrivesTwice : List ArrivalOp :=
  [.receive (.data { tsn := 7, userData := [1] }), .receive (.data { tsn := 7, userData := [1] }),
    .sack]

theorem reportsDuplicates_arrivesOnce :
    justEstablished.ReportsDuplicates [.receive (.data { tsn := 7, userData := [1] }), .sack] :=
  have hfirst : justEstablished.isDuplicate { tsn := 7, userData := [1] } = false := by decide
  (reportsDuplicates_iff rfl _).mpr ⟨hfirst, trivial, trivial⟩

theorem not_reportsDuplicates_arrivesTwice :
    ¬ ∀ a : AssociationInternal, a.payloadQueue.dupTsn = [] → ∀ ops, a.ReportsDuplicates ops := by
  intro hall
  have hreports : (Runs.outputs arrivalStep reported justEstablished arrivesTwice).flatten ++
      (Runs.run arrivalStep justEstablished arrivesTwice).payloadQueue.dupTsn =
        (Runs.outputs arrivalStep duplicates justEstablished arrivesTwice).flatten :=
    hall justEstablished rfl arrivesTwice
  exact absurd hreports (by decide +kernel)

end AssociationInternal

end Sctp
