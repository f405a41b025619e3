import Sctp.Association.StreamReset
import Sctp.Queue.ReassemblyRuns
import Sctp.Wire.RoundTrip

/-!
# What is acknowledged is kept

`handle_data` hands a chunk to the payload queue, from which it is acknowledged, and to the
reassembly queue of its stream, which decides for itself whether it keeps the chunk. A ledger
lists the ordered chunks that have been handed over and are still owed to the reader.
-/

namespace Sctp

namespace ReassemblyQueue

/-- The chunk lies in one of the ordered sets. -/
def Holds (q : ReassemblyQueue) (d : ChunkPayloadData) : Prop :=
  ∃ cset ∈ q.ordered, d ∈ cset.chunks

instance (q : ReassemblyQueue) (d : ChunkPayloadData) : Decidable (q.Holds d) :=
  inferInstanceAs (Decidable (∃ cset ∈ q.ordered, d ∈ cset.chunks))

/-- The SSN of the chunk is not taken for one behind `next_ssn`, and no chunk with its TSN lies
in the set of its SSN. -/
def inReach (q : ReassemblyQueue) (d : ChunkPayloadData) : Bool :=
  !sna16lt d.streamSequenceNumber q.nextSsn &&
    (q.ordered.find? (·.ssn = d.streamSequenceNumber)).all fun cset =>
      !cset.chunks.any (·.tsn = d.tsn)

end ReassemblyQueue

namespace Stream

/-- A read takes the message the chunk belongs to out of the queue. -/
def takes (s : Stream) (d : ChunkPayloadData) : Bool :=
  !s.readShutdown && s.reassemblyQueue.takeReadable.2.any (d ∈ ·.chunks)

/-- A read into a buffer of `bufLen` bytes gives the application the message the chunk belongs to. -/
def returns (s : Stream) (bufLen : ℕ) (d : ChunkPayloadData) : Bool :=
  s.takes d && (s.readSctp bufLen).2.any (·.isOk)

/-- A read takes the message the chunk belongs to, and `bufLen` bytes are too few for it. -/
def cutsOff (s : Stream) (bufLen : ℕ) (d : ChunkPayloadData) : Bool :=
  s.takes d && s.reassemblyQueue.takeReadable.2.any (bufLen < chunksBytes ·.chunks)

/-- A forward of the stream to `lastSsn` skips the message the chunk belongs to. -/
def skips (s : Stream) (lastSsn : U16) (d : ChunkPayloadData) : Bool :=
  !s.unordered && s.reassemblyQueue.ordered.any fun cset =>
    ReassemblyQueue.skippedBy lastSsn cset && d ∈ cset.chunks

/-- The chunks of messages that are written one after the other. -/
def written (s : Stream) (flags : SharedFlags) (ppi : PayloadProtocolIdentifier) :
    List Bytes → List ChunkPayloadData
  | [] => []
  | p :: messages =>
    let (s, flags, chunks) := s.packetize flags p ppi
    chunks ++ s.written flags ppi messages

end Stream

/-- The chunks as they arrive when they are sent under the TSNs from `tsn` on. -/
def transmitted (tsn : U32) (chunks : List ChunkPayloadData) : List Chunk :=
  chunks.mapIdx fun i c => (Chunk.payloadData { c with tsn := tsn.after i }).wire

namespace AssociationInternal

/-- The reassembly queue a chunk of the stream goes to. -/
def queueOf (a : AssociationInternal) (streamIdentifier : U16) : ReassemblyQueue :=
  match a.stream? streamIdentifier with
  | some s => s.reassemblyQueue
  | none => ReassemblyQueue.new streamIdentifier

/-- An ordered chunk that is handed over lies in reach of its stream's reassembly queue. -/
def HandsInReach (a : AssociationInternal) : StreamOp → Prop
  | .receive (.data d) =>
    a.handsOver d = true → d.unordered = false → (a.queueOf d.streamIdentifier).inReach d = true
  | _ => True

instance (a : AssociationInternal) (op : StreamOp) : Decidable (a.HandsInReach op) :=
  match op with
  | .receive (.data d) => inferInstanceAs (Decidable (a.handsOver d = true → d.unordered = false →
      (a.queueOf d.streamIdentifier).inReach d = true))
  | .receive (.forwardTsn _) | .receive (.reconfig _) | .receive .accept | .receive (.read ..)
  | .openStream .. | .readSctp .. => isTrue trivial

/-- The ordered chunks an operation puts into `payload_queue`. -/
def acknowledges (a : AssociationInternal) : StreamOp → List ChunkPayloadData
  | .receive (.data d) => if a.handsOver d && !d.unordered then [d] else []
  | _ => []

/-- The operation gives the chunk's message to the reader, or skips it. -/
def settles (a : AssociationInternal) (d : ChunkPayloadData) : StreamOp → Bool
  | .receive (.read si n) => si = d.streamIdentifier && (a.stream? si).any (·.returns n d)
  | .readSctp r n =>
    a.streams.lookup d.streamIdentifier = some r && (a.objects[r]?).any (·.returns n d)
  | .receive (.forwardTsn c) =>
    a.useForwardTsn && !sna32lte c.newCumulativeTsn a.peerLastTsn &&
      c.streams.any fun e =>
        e.identifier = d.streamIdentifier && (a.stream? e.identifier).any (·.skips e.sequence d)
  | _ => false

/-- The stream of the chunk is reset: it is not registered any more. -/
def isReset (a : AssociationInternal) (d : ChunkPayloadData) : Bool :=
  (a.streams.lookup d.streamIdentifier).isNone

/-- The association with the chunks it owes to the reader. -/
def owedStep (s : AssociationInternal × List ChunkPayloadData) (op : StreamOp) :
    AssociationInternal × List ChunkPayloadData :=
  let a := s.1.streamStep op
  (a, (s.2 ++ s.1.acknowledges op).filter fun d => !s.1.settles d op && !a.isReset d)

/-- A read that takes a message the reader is owed has a buffer that is long enough for it. -/
def ReadsFit (s : AssociationInternal × List ChunkPayloadData) : StreamOp → Prop
  | .receive (.read si n) =>
    ∀ d ∈ s.2, d.streamIdentifier = si → ∀ stream ∈ s.1.stream? si, stream.cutsOff n d = false
  | .readSctp r n =>
    ∀ d ∈ s.2, s.1.streams.lookup d.streamIdentifier = some r →
      ∀ stream ∈ s.1.objects[r]?, stream.cutsOff n d = false
  | _ => True

instance (s : AssociationInternal × List ChunkPayloadData) (op : StreamOp) :
    Decidable (ReadsFit s op) :=
  match op with
  | .receive (.read si n) => inferInstanceAs (Decidable (∀ d ∈ s.2, d.streamIdentifier = si →
      ∀ stream ∈ s.1.stream? si, stream.cutsOff n d = false))
  | .readSctp r n => inferInstanceAs (Decidable (∀ d ∈ s.2,
      s.1.streams.lookup d.streamIdentifier = some r →
        ∀ stream ∈ s.1.objects[r]?, stream.cutsOff n d = false))
  | .receive (.data _) | .receive (.forwardTsn _) | .receive (.reconfig _) | .receive .accept
  | .openStream .. => isTrue trivial

/-- Ordered chunks are handed over in reach, and no read cuts a message off. -/
def KeepsOwed (s : AssociationInternal × List ChunkPayloadData) (op : StreamOp) : Prop :=
  s.1.HandsInReach op ∧ ReadsFit s op

instance (s : AssociationInternal × List ChunkPayloadData) (op : StreamOp) :
    Decidable (KeepsOwed s op) := inferInstanceAs (Decidable (_ ∧ _))

/-- What is owed is held by the stream it belongs to. -/
def HoldsOwed (s : AssociationInternal × List ChunkPayloadData) : Prop :=
  ∀ d ∈ s.2, ∃ stream, s.1.stream? d.streamIdentifier = some stream ∧
    stream.reassemblyQueue.Holds d

instance (s : AssociationInternal × List ChunkPayloadData) : Decidable (HoldsOwed s) :=
  decidable_of_iff (∀ d ∈ s.2, ((s.1.stream? d.streamIdentifier).any
    fun stream => stream.reassemblyQueue.Holds d) = true) (by simp [HoldsOwed, Option.any_eq_true])

end AssociationInternal

end Sctp
