import Sctp.Association.ResetExchange
import Sctp.Association.Transmission

/-!
# The end of a stream as a system

The application writes messages whole and shuts streams down; `gather_outbound` finds any windows.
What has been written and what has been sent is noted beside the association.
-/

namespace Sctp

/-- The application's calls, and a round of the write loop under the windows given. -/
inductive StreamCall where
  | openStream (streamIdentifier : U16) (defaultPayloadType : PayloadProtocolIdentifier)
  | setReliabilityParams (r : StreamRef) (unordered : Bool) (relType : ReliabilityType)
      (relVal : U32)
  | write (r : StreamRef) (p : Bytes) (ppi : PayloadProtocolIdentifier)
  | shutdownStream (r : StreamRef) (how : Shutdown)
  | gather (now : ℕ) (cwnd rwnd : U32)

/-- The chunk without what `gather_outbound` enters when it sends it. -/
def ChunkPayloadData.unsent (c : ChunkPayloadData) : ChunkPayloadData :=
  { c with tsn := 0, since := 0, nsent := 0 }

namespace AssociationInternal

/-- The association after a call of the application. -/
def callStep (a : AssociationInternal) : StreamCall → AssociationInternal
  | .openStream si ppi => (a.openStream si ppi).1
  | .setReliabilityParams r unordered relType relVal =>
    a.modifyObject r (·.setReliabilityParams unordered relType relVal)
  | .write r p ppi => (a.writeSctp r p ppi).1
  | .shutdownStream r how => (a.shutdownStream r how).1
  | .gather now cwnd rwnd => ({ a with cwnd, rwnd }.gatherOutbound now).1

/-- The chunks of the message that a call writes. -/
def writes (a : AssociationInternal) : StreamCall → List ChunkPayloadData
  | .write r p ppi =>
    match a.objects[r]? with
    | none => []
    | some s => if (a.writeSctp r p ppi).2.isOk then (s.packetize a.flags p ppi).2.2 else []
  | _ => []

/-- The chunks a call gives TSNs to, in order. -/
def sends (a : AssociationInternal) : StreamCall → List ChunkPayloadData
  | .gather now cwnd rwnd => { a with cwnd, rwnd }.assigns (.gather now)
  | _ => []

/-- The reset request a call creates. -/
def requests (a : AssociationInternal) : StreamCall → List ParamOutgoingResetRequest
  | .gather now cwnd rwnd => { a with cwnd, rwnd }.issued (.gather now)
  | _ => []

/-- Every stream object is registered under its identifier. -/
def AllRegistered (a : AssociationInternal) : Prop :=
  ∀ (r : StreamRef) s, a.objects[r]? = some s → a.streams.lookup s.streamIdentifier = some r

end AssociationInternal

/-- The association with the chunks that have been written, and those that have been sent. -/
structure Outgoing where
  association : AssociationInternal
  written : List ChunkPayloadData := []
  sent : List ChunkPayloadData := []

namespace Outgoing

/-- The log after a call. -/
def step (s : Outgoing) (call : StreamCall) : Outgoing where
  association := s.association.callStep call
  written := s.written ++ s.association.writes call
  sent := s.sent ++ s.association.sends call

/-- The chunks of one kind of a stream, as they are before they are sent. -/
def ofStream (si : U16) (u : Bool) (chunks : List ChunkPayloadData) : List ChunkPayloadData :=
  (chunks.map (·.unsent)).filter fun c => c.streamIdentifier = si && c.unordered = u

/-- When a request that names a stream is created, no chunk of the stream is pending, and what was
written to it has been sent, in order among the ordered and among the unordered chunks. -/
def LeavesNothingBehind (s : Outgoing) (call : StreamCall) : Prop :=
  ∀ p ∈ s.association.requests call, ∀ si ∈ p.streamIdentifiers,
    (∀ c ∈ (s.step call).association.pendingQueue.unorderedQueue ++
      (s.step call).association.pendingQueue.orderedQueue, c.streamIdentifier ≠ si) ∧
    ∀ u, ofStream si u (s.step call).sent = ofStream si u (s.step call).written

/-- The TSNs of the stream's chunks are serially at or before the last TSN of the request. -/
def EndsAtOrBehind (s : Outgoing) (call : StreamCall) : Prop :=
  ∀ p ∈ s.association.requests call, ∀ si ∈ p.streamIdentifiers, ∀ c ∈ (s.step call).sent,
    c.streamIdentifier = si → sna32lte c.tsn p.senderLastTsn = true

/-- So is the TSN of a chunk exactly if the number of those sent after it, modulo 2^32, is less
than 2^31. -/
def EndsInReach (s : Outgoing) (call : StreamCall) : Prop :=
  ∀ p ∈ s.association.requests call, ∀ si ∈ p.streamIdentifiers, ∀ i c,
    (s.step call).sent[i]? = some c → c.streamIdentifier = si →
      (sna32lte c.tsn p.senderLastTsn = true ↔
        ((s.step call).sent.length - 1 - i) % 2 ^ 32 < 2 ^ 31)

end Outgoing

end Sctp
