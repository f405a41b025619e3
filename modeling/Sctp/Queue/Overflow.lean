import Sctp.Queue.PayloadQueue
import Sctp.Queue.UnorderedRunTheorems

/-!
# Additions that overflow in the receiving queues

The queues add one to TSNs, to SSNs and to gap offsets with a plain `+`. In a build with
overflow checks such an addition panics at the greatest number; up to there the function does
what it does in the wrapping model. So each function gets a companion that goes through the
same branches and tells whether an addition on the way overflows.
-/

namespace Sctp

/-- The loop of `is_complete`, which adds one to `last_tsn` before every chunk but the first. -/
def isContiguousFromOverflows (lastTsn : U32) : List ChunkPayloadData → Bool
  | [] => false
  | c :: cs =>
    lastTsn.uaddOverflow 1 || (c.tsn = lastTsn + 1 && isContiguousFromOverflows c.tsn cs)

namespace ChunkSet

/-- `is_complete` overflows when it adds one to a TSN. -/
def isCompleteOverflows (s : ChunkSet) : Bool :=
  match s.chunks with
  | [] => false
  | c :: cs =>
    c.beginningFragment && ((c :: cs).getLast?.map (·.endingFragment)).getD false &&
      isContiguousFromOverflows c.tsn cs

/-- `push` into a chunk set overflows where it looks whether the set is complete. -/
def pushOverflows (s : ChunkSet) (chunk : ChunkPayloadData) : Bool :=
  if s.chunks.any (·.tsn = chunk.tsn) then
    false
  else
    { s with chunks := sortChunksByTsn (s.chunks ++ [chunk]) }.isCompleteOverflows

end ChunkSet

namespace ReassemblyQueue

/-- The loop of `find_complete_unordered_chunk_set`; `begun` stands for `start_idx >= 0`. -/
def scanUnorderedOverflows (begun : Bool) (lastTsn : U32) : List ChunkPayloadData → Bool
  | [] => false
  | c :: cs =>
    if c.beginningFragment then
      if c.endingFragment then false else scanUnorderedOverflows true c.tsn cs
    else if !begun then
      scanUnorderedOverflows false lastTsn cs
    else
      lastTsn.uaddOverflow 1 ||
        if c.tsn ≠ lastTsn + 1 then
          scanUnorderedOverflows false lastTsn cs
        else if c.endingFragment then
          false
        else
          scanUnorderedOverflows true c.tsn cs

/-- The search for an unordered message overflows. -/
def findCompleteUnorderedChunkSetOverflows (q : ReassemblyQueue) : Bool :=
  scanUnorderedOverflows false 0 q.unorderedChunks

/-- The set that has the SSN of the chunk gets it, and looks whether it is complete. -/
def pushOrderedOverflows (chunk : ChunkPayloadData) : List ChunkSet → Bool
  | [] => (ChunkSet.new chunk.streamSequenceNumber chunk.payloadType).pushOverflows chunk
  | s :: sets =>
    if s.ssn = chunk.streamSequenceNumber then s.pushOverflows chunk
    else pushOrderedOverflows chunk sets

/-- `push` overflows, in the search for an unordered message or in a chunk set. -/
def pushOverflows (q : ReassemblyQueue) (chunk : ChunkPayloadData) : Bool :=
  if chunk.streamIdentifier ≠ q.si then
    false
  else if chunk.unordered then
    { q with
      unorderedChunks :=
        sortChunksByTsn (q.unorderedChunks ++ [chunk]) }.findCompleteUnorderedChunkSetOverflows
  else if sna16lt chunk.streamSequenceNumber q.nextSsn then
    false
  else
    pushOrderedOverflows chunk q.ordered

/-- `is_readable` overflows, at the first set of the ordered ones. -/
def isReadableOverflows (q : ReassemblyQueue) : Bool :=
  if q.unordered ≠ [] then
    false
  else
    match q.ordered with
    | [] => false
    | cset :: _ => cset.isCompleteOverflows

/-- `read` overflows: at the first set, or where the next SSN goes on behind the message. -/
def readOverflows (q : ReassemblyQueue) : Bool :=
  match q.unordered with
  | _ :: _ => false
  | [] =>
    match q.ordered with
    | [] => false
    | cset :: _ =>
      cset.isCompleteOverflows ||
        (cset.isComplete && !sna16gt cset.ssn q.nextSsn && cset.ssn = q.nextSsn &&
          q.nextSsn.uaddOverflow 1)

/-- `is_complete` is asked of the sets up to `lastSsn`, and then `next_ssn` is forwarded. -/
def forwardTsnForOrderedOverflows (q : ReassemblyQueue) (lastSsn : U16) : Bool :=
  (q.ordered.any fun s => sna16lte s.ssn lastSsn && s.isCompleteOverflows) ||
    (sna16lte q.nextSsn lastSsn && lastSsn.uaddOverflow 1)

end ReassemblyQueue

namespace PayloadQueue

/-- The loop of `get_gap_ack_blocks` after its first round: every round adds one to the end of
the block begun. -/
def gapAckBlocksFromOverflows (b : GapAckBlock) : List U16 → Bool
  | [] => false
  | diff :: rest =>
    b.end_.uaddOverflow 1 ||
      if b.end_ + 1 = diff then
        gapAckBlocksFromOverflows { b with end_ := b.end_ + 1 } rest
      else
        gapAckBlocksFromOverflows { start := diff, end_ := diff } rest

/-- `get_gap_ack_blocks` overflows where it adds one to the end of a block. -/
def getGapAckBlocksOverflows (q : PayloadQueue) (cumulativeTsn : U32) : Bool :=
  if q.chunkMap.entries = [] then
    false
  else
    match q.sorted.map (gapOffset cumulativeTsn) with
    | [] => false
    | diff :: rest => gapAckBlocksFromOverflows { start := diff, end_ := diff } rest

end PayloadQueue

/-! ## What makes an addition overflow -/

/-- A message whose chunks follow each other up to the last TSN, and which has more chunks. -/
structure PassesLastTsn (chunks : List ChunkPayloadData) : Prop where
  beginning : ∃ c ∈ chunks.head?, c.beginningFragment = true
  ending : ∃ c ∈ chunks.getLast?, c.endingFragment = true
  passes : ∃ begun c after, chunks = begun ++ c :: after ∧
    (begun.IsChain fun c c' => c'.tsn = c.tsn + 1) ∧ ∃ c' ∈ begun.getLast?, c'.tsn = 0xffffffff

namespace ReassemblyQueue

/-- Among the unordered chunks a message has begun and reaches the last TSN, a chunk that begins
none comes next, and no message is complete before it. -/
def UnorderedPassesLastTsn (chunks : List ChunkPayloadData) : Prop :=
  ∃ before begun c after, chunks = before ++ begun ++ c :: after ∧
    BegunRun begun 0xffffffff ∧ c.beginningFragment = false ∧
      ∀ run, IsRun run → ¬ run <:+: before ++ begun

/-- The chunks that are kept under an SSN. -/
def chunksWith (q : ReassemblyQueue) (ssn : U16) : List ChunkPayloadData :=
  ((q.ordered.find? (·.ssn = ssn)).map (·.chunks)).getD []

/-- The chunk is taken, and with it a message that is kept passes the last TSN. -/
def PushPassesLastTsn (q : ReassemblyQueue) (chunk : ChunkPayloadData) : Prop :=
  chunk.streamIdentifier = q.si ∧
    if chunk.unordered then
      UnorderedPassesLastTsn (sortChunksByTsn (q.unorderedChunks ++ [chunk]))
    else
      sna16lt chunk.streamSequenceNumber q.nextSsn = false ∧
        (∀ c ∈ q.chunksWith chunk.streamSequenceNumber, c.tsn ≠ chunk.tsn) ∧
          PassesLastTsn (sortChunksByTsn (q.chunksWith chunk.streamSequenceNumber ++ [chunk]))

/-- The next message to read is complete and has the last SSN. -/
def ReadsLastSsn (q : ReassemblyQueue) : Prop :=
  q.unordered = [] ∧ q.nextSsn = 0xffff ∧
    ∃ cset ∈ q.ordered.head?, cset.ssn = 0xffff ∧ cset.isComplete = true

end ReassemblyQueue

end Sctp
