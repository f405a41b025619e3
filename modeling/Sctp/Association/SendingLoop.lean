import Sctp.Association.Outbound

/-!
# The sending loop

The contents the pending queue can have, whoever pushes to it and in what order, and the rounds
of the loop that empties it.
-/

namespace Sctp

/-- A fragment with data, or a marker. -/
def ChunkPayloadData.IsPushed (c : ChunkPayloadData) : Prop :=
  c.userData ≠ [] ∨
    c.beginningFragment = true ∧ c.endingFragment = true ∧ c.unordered = false

/-- Chunks have been pushed one by one, and some have been popped between that. -/
inductive PendingQueue.Written : PendingQueue → Prop
  | new : Written {}
  | push {q : PendingQueue} (h : Written q) {c : ChunkPayloadData} (hc : c.IsPushed) :
      Written (q.push c)
  | pop {q : PendingQueue} (h : Written q) (beginningFragment unordered : Bool) :
      Written (q.pop beginningFragment unordered).1

namespace AssociationInternal

/-- The state of the loop: the association, the chunks to send and the streams to reset. -/
abbrev PopState := AssociationInternal × List ChunkPayloadData × List U16

/-- A round of the loop; `none` when the loop ends. -/
def popPendingRound (now : ℕ) (s : PopState) : Option PopState :=
  match s.1.pendingQueue.peek with
  | none => none
  | some c =>
    let dataLen := c.userData.length
    if dataLen = 0 then
      let (q, _) := s.1.pendingQueue.pop c.beginningFragment c.unordered
      some ({ s.1 with pendingQueue := q }, s.2.1, s.2.2 ++ [c.streamIdentifier])
    else if s.1.inflightQueue.getNumBytes + dataLen > s.1.cwnd.toNat then
      none
    else if dataLen > s.1.rwnd.toNat then
      none
    else
      let a := { s.1 with rwnd := s.1.rwnd - BitVec.ofNat 32 dataLen }
      let (a, chunk) := a.movePendingDataChunkToInflightQueue now c.beginningFragment c.unordered
      some (a, s.2.1 ++ chunk.toList, s.2.2)

/-- The state after exactly `n` rounds, if the loop goes on that long. -/
def popPendingAfter (now : ℕ) : ℕ → PopState → Option PopState
  | 0, s => some s
  | n + 1, s => (popPendingRound now s).bind (popPendingAfter now n)

end AssociationInternal

end Sctp
