import Sctp.Lib.Runs
import Sctp.Queue.ReassemblyQueue

/-!
# Runs of a reassembly queue

The operations on the queue of one stream, in any order and with any arguments. The chunks of a
run are accounted for by what each step accepts, hands to the reader and discards.
-/

namespace Sctp

/-- A call on a reassembly queue. -/
inductive ReassemblyOp where
  | push (chunk : ChunkPayloadData)
  | read (bufLen : ℕ)
  | forwardTsnForOrdered (lastSsn : U16)
  | forwardTsnForUnordered (newCumulativeTsn : U32)
deriving DecidableEq, Repr

/-- The chunks of the sets, one set after the other. -/
def setChunks (sets : List ChunkSet) : List ChunkPayloadData := sets.flatMap (·.chunks)

/-- The user bytes of the chunks. -/
def chunksBytes (chunks : List ChunkPayloadData) : ℕ := (chunks.map (·.userData.length)).sum

/-- Consecutive TSNs from the one beginning fragment to the one ending fragment. -/
structure IsRun (chunks : List ChunkPayloadData) : Prop where
  ne_nil : chunks ≠ []
  consecutive : chunks.IsChain fun c c' => c'.tsn = c.tsn + 1
  beginning : ∀ i c, chunks[i]? = some c → (c.beginningFragment = true ↔ i = 0)
  ending : ∀ i c, chunks[i]? = some c → (c.endingFragment = true ↔ i + 1 = chunks.length)

/-- Consecutive TSNs of one SSN from a beginning fragment to an ending one. -/
structure IsOrderedMessage (ssn : U16) (chunks : List ChunkPayloadData) : Prop where
  consecutive : chunks.IsChain fun c c' => c'.tsn = c.tsn + 1
  beginning : ∃ c ∈ chunks.head?, c.beginningFragment = true
  ending : ∃ c ∈ chunks.getLast?, c.endingFragment = true
  sameSsn : ∀ c ∈ chunks, c.streamSequenceNumber = ssn

namespace ReassemblyQueue

/-- The queue after an operation. -/
def applyOp (q : ReassemblyQueue) : ReassemblyOp → ReassemblyQueue
  | .push chunk => (q.push chunk).1
  | .read bufLen => (q.read bufLen).1
  | .forwardTsnForOrdered lastSsn => q.forwardTsnForOrdered lastSsn
  | .forwardTsnForUnordered newCumulativeTsn => q.forwardTsnForUnordered newCumulativeTsn

/-! ## What goes in and out -/

/-- The chunks that are still held. -/
def held (q : ReassemblyQueue) : List ChunkPayloadData :=
  setChunks q.ordered ++ setChunks q.unordered ++ q.unorderedChunks

/-- The bytes of the chunks that are held. -/
def heldBytes (q : ReassemblyQueue) : ℕ := chunksBytes q.held

/-- `push` keeps a chunk of this stream, unless its SSN has been passed. -/
def accepts (q : ReassemblyQueue) (chunk : ChunkPayloadData) : Bool :=
  chunk.streamIdentifier = q.si && (chunk.unordered || !sna16lt chunk.streamSequenceNumber q.nextSsn)

/-- The chunk that an operation takes in. -/
def accepted (q : ReassemblyQueue) : ReassemblyOp → List ChunkPayloadData
  | .push chunk => if q.accepts chunk then [chunk] else []
  | _ => []

/-- The set `read` takes out, whether it fits into the buffer or not. -/
def takenSet (q : ReassemblyQueue) : ReassemblyOp → Option ChunkSet
  | .read _ => q.takeReadable.2
  | _ => none

/-- The chunks that an operation takes out of the queue, readable or not. -/
def taken (q : ReassemblyQueue) (op : ReassemblyOp) : List ChunkPayloadData :=
  setChunks (q.takenSet op).toList

/-- The chunks that a FORWARD TSN drops. -/
def discarded (q : ReassemblyQueue) : ReassemblyOp → List ChunkPayloadData
  | .forwardTsnForOrdered lastSsn => setChunks (q.ordered.filter (skippedBy lastSsn))
  | .forwardTsnForUnordered newCumulativeTsn =>
    q.unorderedChunks.takeWhile fun c => !sna32gt c.tsn newCumulativeTsn
  | _ => []

/-- `read` answers with the whole message of the set it takes out, or with an error if that does
not fit. -/
def ReadsTaken (q : ReassemblyQueue) (op : ReassemblyOp) : Prop :=
  ∀ bufLen, op = .read bufLen → (q.read bufLen).2 =
    match q.takenSet op with
    | none => .error .errTryAgain
    | some s =>
      if chunksBytes s.chunks ≤ bufLen then .ok (chunksData s.chunks, s.ppi)
      else .error .errShortBuffer

/-- No chunk that is held has the TSN of the chunk pushed. -/
def PushesFresh (q : ReassemblyQueue) : ReassemblyOp → Prop
  | .push chunk => ∀ c ∈ q.held, c.tsn ≠ chunk.tsn
  | _ => True

instance (q : ReassemblyQueue) (op : ReassemblyOp) : Decidable (q.PushesFresh op) :=
  match op with
  | .push chunk => inferInstanceAs (Decidable (∀ c ∈ q.held, c.tsn ≠ chunk.tsn))
  | .read _ | .forwardTsnForOrdered _ | .forwardTsnForUnordered _ => isTrue trivial

/-- The chunks that the calls push. -/
def pushedChunks (ops : List ReassemblyOp) : List ChunkPayloadData :=
  ops.filterMap fun
    | .push chunk => some chunk
    | _ => none

/-- Every unordered set is one message, and no other message is complete. -/
structure UnorderedComplete (q : ReassemblyQueue) : Prop where
  complete : ∀ s ∈ q.unordered, IsRun s.chunks
  noRun : ∀ run, IsRun run → ¬ run ⊆ q.unorderedChunks

/-- `n_bytes` is what is held. -/
def CountsHeld (q : ReassemblyQueue) : Prop := q.nBytes = q.heldBytes

/-- `subtract_num_bytes` is not asked for more than there is. -/
def NeverSaturates (q : ReassemblyQueue) (op : ReassemblyOp) : Prop :=
  chunksBytes (q.taken op ++ q.discarded op) ≤ q.nBytes

/-! ## The order of delivery -/

/-- The SSN of the ordered message that `read` takes out. -/
def takenSsn (q : ReassemblyQueue) (op : ReassemblyOp) : Option U16 :=
  if q.unordered = [] then (q.takenSet op).map (·.ssn) else none

/-- The SSNs of the ordered messages read in a run. -/
def takenSsns (q : ReassemblyQueue) (ops : List ReassemblyOp) : List U16 :=
  (Runs.outputs applyOp takenSsn q ops).reduceOption

/-- `read` may hand out the set: it is complete, and its SSN is not ahead of the next one. -/
def due (q : ReassemblyQueue) (s : ChunkSet) : Bool := s.isComplete && sna16lte s.ssn q.nextSsn

/-- The ordered sets are sorted, and if any is due, so is the first one. -/
structure OrderedSorted (q : ReassemblyQueue) : Prop where
  increasing : q.ordered.Pairwise fun s s' => sna16lt s.ssn s'.ssn = true
  distinct : (q.ordered.map (·.ssn)).Nodup
  dueFirst : ∀ s ∈ q.ordered, q.due s = true → q.ordered.head?.any q.due = true

/-- The place of an SSN in the order of delivery: those that `next_ssn` has passed come first,
then the next one at 2¹⁵ - 1, and those to come. -/
def place (q : ReassemblyQueue) (ssn : U16) : ℕ :=
  Serial.dist (q.nextSsn + BitVec.ofNat 16 (2 ^ 15 + 1)) ssn

/-- A set is opened less than 2¹⁵ places from every set that is held, and no forward leaves a
set that is due 2¹⁵ or more behind. -/
def KeepsOrder (q : ReassemblyQueue) : ReassemblyOp → Prop
  | .push chunk =>
    q.accepts chunk = true → chunk.unordered = false →
      (∀ s ∈ q.ordered, s.ssn ≠ chunk.streamSequenceNumber) →
        ∀ s ∈ q.ordered, q.place s.ssn < q.place chunk.streamSequenceNumber + 2 ^ 15 ∧
          q.place chunk.streamSequenceNumber < q.place s.ssn + 2 ^ 15
  | .forwardTsnForOrdered lastSsn =>
    sna16lte q.nextSsn lastSsn = true → ∀ s ∈ q.ordered, q.due s = true →
      sna16lte s.ssn (lastSsn + 1) = true
  | _ => True

instance (q : ReassemblyQueue) (op : ReassemblyOp) : Decidable (q.KeepsOrder op) :=
  match op with
  | .push _ => inferInstanceAs (Decidable (_ → _))
  | .forwardTsnForOrdered _ => inferInstanceAs (Decidable (_ → _))
  | .read _ | .forwardTsnForUnordered _ => isTrue trivial

/-- The SSN that an operation brings. -/
def opSsn : ReassemblyOp → Option U16
  | .push chunk => if chunk.unordered then none else some chunk.streamSequenceNumber
  | .forwardTsnForOrdered lastSsn => some lastSsn
  | _ => none

/-- The SSNs that the step meets lie in one window of less than 2¹⁵. -/
def InWindow (base : U16) (q : ReassemblyQueue) (op : ReassemblyOp) : Prop :=
  Serial.dist base q.nextSsn < 2 ^ 15 ∧ Serial.dist base (q.applyOp op).nextSsn < 2 ^ 15 ∧
    (opSsn op).all (fun ssn => Serial.dist base ssn < 2 ^ 15) = true

instance (base : U16) (q : ReassemblyQueue) (op : ReassemblyOp) : Decidable (q.InWindow base op) :=
  inferInstanceAs (Decidable (_ ∧ _ ∧ _))

/-- What `read` hands out of the ordered sets is a message. -/
def TakesMessage (q : ReassemblyQueue) (op : ReassemblyOp) : Prop :=
  ∀ s, q.unordered = [] → q.takenSet op = some s → IsOrderedMessage s.ssn s.chunks

/-- `next_ssn` does not go back. -/
def NextAdvances (q : ReassemblyQueue) (op : ReassemblyOp) : Prop :=
  sna16lte q.nextSsn (q.applyOp op).nextSsn = true

/-- A forward discards no complete set. -/
def KeepsComplete (q : ReassemblyQueue) (op : ReassemblyOp) : Prop :=
  ∀ lastSsn, op = .forwardTsnForOrdered lastSsn → ∀ s ∈ q.ordered, s.isComplete = true →
    s ∈ (q.applyOp op).ordered

end ReassemblyQueue

end Sctp
