import Sctp.Queue.ReassemblyRuns
import Sctp.Stream

/-!
# The numbers of the messages of a stream

`packetize` gives the chunks of a message the `sequence_number` of the stream and counts it up
behind the loop. The reader of the other side waits for the numbers one after the other.
-/

namespace Sctp

/-- What `write_sctp` finds outside the stream. -/
structure WriteContext where
  maxMessageSize : U32
  state : AssociationState
  flags : SharedFlags
  pendingQueue : PendingQueue

/-- A call on a stream. -/
inductive StreamEvent where
  | write (context : WriteContext) (p : Bytes) (ppi : PayloadProtocolIdentifier)
  | setReliabilityParams (unordered : Bool) (relType : ReliabilityType) (relVal : U32)
  | setDefaultPayloadType (ppi : PayloadProtocolIdentifier)
  | read (bufLen : ℕ)
  | handleData (pd : ChunkPayloadData)
  | onBufferReleased (nBytesReleased : ℕ)

namespace Stream

/-- The stream after an event. -/
def eventStep (s : Stream) : StreamEvent → Stream
  | .write cx p ppi => (s.writeSctp cx.maxMessageSize cx.state cx.flags cx.pendingQueue p ppi).1
  | .setReliabilityParams unordered relType relVal => s.setReliabilityParams unordered relType relVal
  | .setDefaultPayloadType ppi => s.setDefaultPayloadType ppi
  | .read bufLen => (s.readSctp bufLen).1
  | .handleData pd => (s.handleData pd).1
  | .onBufferReleased nBytesReleased => (s.onBufferReleased nBytesReleased).1

/-- A write is answered with `Ok`. -/
def WriteOk (s : Stream) : StreamEvent → Prop
  | .write cx p ppi =>
    (s.writeSctp cx.maxMessageSize cx.state cx.flags cx.pendingQueue p ppi).2.2.2.isOk = true
  | _ => True

instance (s : Stream) (e : StreamEvent) : Decidable (s.WriteOk e) :=
  match e with
  | .write .. => inferInstanceAs (Decidable (_ = true))
  | .setReliabilityParams .. | .setDefaultPayloadType _ | .read _ | .handleData _
  | .onBufferReleased _ => isTrue trivial

/-- The ordered chunks that a write puts into the pending queue, if there are any. -/
def orderedMessage (s : Stream) : StreamEvent → Option (List ChunkPayloadData)
  | .write cx p ppi =>
    if (s.writeSctp cx.maxMessageSize cx.state cx.flags cx.pendingQueue p ppi).2.2.2.isOk then
      match (s.packetize cx.flags p ppi).2.2.filter fun c => !c.unordered with
      | [] => none
      | chunks => some chunks
    else
      none
  | _ => none

/-- The ordered messages with at least one chunk, one after the other. -/
def orderedMessages (s : Stream) (events : List StreamEvent) : List (List ChunkPayloadData) :=
  (Runs.outputs eventStep orderedMessage s events).reduceOption

/-- The message is to be delivered in order. -/
def isOrdered (s : Stream) (ppi : PayloadProtocolIdentifier) : Bool := ppi = .dcep || !s.unordered

/-- The event is an ordered write of some bytes. -/
def writesOrderedBytes (s : Stream) : StreamEvent → Bool
  | .write _ p ppi => p ≠ [] && s.isOrdered ppi
  | _ => false

/-- The event is an ordered write of no bytes. -/
def writesOrderedEmpty (s : Stream) : StreamEvent → Bool
  | .write _ p ppi => p = [] && s.isOrdered ppi
  | _ => false

/-- The ordered writes of no bytes. -/
def emptyWrites (s : Stream) (events : List StreamEvent) : ℕ :=
  (Runs.outputs eventStep writesOrderedEmpty s events).count true

/-- Before every ordered write that has bytes, the ordered writes that have none are a multiple
of 2^16. -/
def EmptiesCancel (s : Stream) (events : List StreamEvent) : Prop :=
  ∀ before e after, events = before ++ e :: after →
    (Runs.run eventStep s before).writesOrderedBytes e = true → 2 ^ 16 ∣ s.emptyWrites before

end Stream

namespace ReassemblyQueue

/-- `read` takes out the message that is next in order. -/
def takesNext (q : ReassemblyQueue) (op : ReassemblyOp) : Bool := q.takenSsn op = some q.nextSsn

/-- The messages that a run reads in their turn. -/
def readInTurn (q : ReassemblyQueue) (ops : List ReassemblyOp) : ℕ :=
  (Runs.outputs applyOp takesNext q ops).count true

end ReassemblyQueue

/-- The ordered messages with chunks are numbered from 0, and a receiver that has read all of them
up to one, with nothing skipped, waits for the number of that one. -/
structure NumberedWithoutHoles (messages : List (List ChunkPayloadData)) : Prop where
  consecutive : ∀ j message, messages[j]? = some message → ∀ c ∈ message,
    c.streamSequenceNumber = BitVec.ofNat 16 j
  reached : ∀ si ops, (∀ lastSsn, .forwardTsnForOrdered lastSsn ∉ ops) → ∀ message,
    messages[(ReassemblyQueue.new si).readInTurn ops]? = some message → ∀ c ∈ message,
      c.streamSequenceNumber =
        (Runs.run ReassemblyQueue.applyOp (ReassemblyQueue.new si) ops).nextSsn

end Sctp
