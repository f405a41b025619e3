import Sctp.Queue.SharedFlag
import Sctp.Lib.AssocMap
import Sctp.Lib.SortBy

/-!
# `queue/payload_queue.rs`

The queue of chunks by TSN: in flight at the sender, beyond the cumulative point at the
receiver. `sorted` is kept in the order of `sna32lt`, whatever that comes to.
-/

namespace Sctp

/-- The chunks by TSN, the TSNs in serial order and the duplicates to be reported. -/
structure PayloadQueue where
  length : ℕ := 0
  chunkMap : AssocMap U32 ChunkPayloadData := ∅
  sorted : List U32 := []
  dupTsn : List U32 := []
  nBytes : ℕ := 0

namespace PayloadQueue

/-- `PayloadQueue::new`. -/
def new : PayloadQueue := {}

/-- `update_sorted_keys`. -/
def updateSortedKeys (q : PayloadQueue) : PayloadQueue :=
  { q with sorted := StableSort.sortBy sna32lt q.sorted }

/-- `can_push`: the TSN is neither held nor at or behind the cumulative one. -/
def canPush (q : PayloadQueue) (p : ChunkPayloadData) (cumulativeTsn : U32) : Bool :=
  !(decide (p.tsn ∈ q.chunkMap) || sna32lte p.tsn cumulativeTsn)

/-- `push_no_check`. -/
def pushNoCheck (q : PayloadQueue) (p : ChunkPayloadData) : PayloadQueue :=
  updateSortedKeys
    { q with
      nBytes := q.nBytes + p.userData.length
      sorted := q.sorted ++ [p.tsn]
      chunkMap := q.chunkMap.insert p.tsn p
      length := q.length + 1 }

/-- Pushes the chunk, or records a duplicate; tells which. -/
def push (q : PayloadQueue) (p : ChunkPayloadData) (cumulativeTsn : U32) : PayloadQueue × Bool :=
  if p.tsn ∈ q.chunkMap ∨ sna32lte p.tsn cumulativeTsn then
    ({ q with dupTsn := q.dupTsn ++ [p.tsn] }, false)
  else
    (q.pushNoCheck p, true)

/-- Pops only if the oldest chunk's TSN matches the given TSN. -/
def pop (q : PayloadQueue) (tsn : U32) : PayloadQueue × Option ChunkPayloadData :=
  match q.sorted with
  | [] => (q, none)
  | first :: sorted =>
    if tsn = first then
      match q.chunkMap.lookup tsn with
      | some c =>
        ({ q with
            sorted
            chunkMap := q.chunkMap.erase tsn
            length := q.length - 1
            nBytes := q.nBytes - c.userData.length }, some c)
      | none => ({ q with sorted }, none)
    else
      (q, none)

/-- `get`. -/
def get (q : PayloadQueue) (tsn : U32) : Option ChunkPayloadData := q.chunkMap.lookup tsn

/-- An assignment through `get_mut`. -/
def getMut (q : PayloadQueue) (tsn : U32) (f : ChunkPayloadData → ChunkPayloadData) :
    PayloadQueue :=
  { q with chunkMap := q.chunkMap.modify tsn f }

/-- `pop_duplicates`. -/
def popDuplicates (q : PayloadQueue) : PayloadQueue × List U32 :=
  ({ q with dupTsn := [] }, q.dupTsn)

/-- The offset of a TSN, cut to 16 bits; 0 when the TSN is the smaller number. -/
def gapOffset (cumulativeTsn tsn : U32) : U16 :=
  if tsn ≥ cumulativeTsn then (tsn - cumulativeTsn).setWidth 16 else 0

/-- The loop of `get_gap_ack_blocks` after its first round, with the block `b` begun. -/
def gapAckBlocksFrom (b : GapAckBlock) : List U16 → List GapAckBlock
  | [] => [b]
  | diff :: rest =>
    if b.end_ + 1 = diff then
      gapAckBlocksFrom { b with end_ := b.end_ + 1 } rest
    else
      b :: gapAckBlocksFrom { start := diff, end_ := diff } rest

/-- `get_gap_ack_blocks`. -/
def getGapAckBlocks (q : PayloadQueue) (cumulativeTsn : U32) : List GapAckBlock :=
  if q.chunkMap.entries = [] then
    []
  else
    match q.sorted.map (gapOffset cumulativeTsn) with
    | [] => [{ start := 0, end_ := 0 }]
    | diff :: rest => gapAckBlocksFrom { start := diff, end_ := diff } rest

/-- The bytes acknowledged, and the queue without them. -/
def markAsAcked (q : PayloadQueue) (tsn : U32) : PayloadQueue × ℕ :=
  match q.chunkMap.lookup tsn with
  | some c =>
    ({ q with
        chunkMap := q.chunkMap.modify tsn fun c =>
          { c with acked := true, retransmit := false, userData := [] }
        nBytes := q.nBytes - c.userData.length }, c.userData.length)
  | none => (q, 0)

/-- `get_last_tsn_received`. -/
def getLastTsnReceived (q : PayloadQueue) : Option U32 := q.sorted.getLast?

/-- `mark_all_to_retransmit`: every chunk that is neither acknowledged nor abandoned. -/
def markAllToRetransmit (q : PayloadQueue) (flags : SharedFlags) : PayloadQueue :=
  { q with
    chunkMap := q.chunkMap.mapVals fun _ c =>
      if c.acked || c.isAbandoned flags then c else { c with retransmit := true } }

/-- `n` rounds at most of a loop over `get(i)`, `get(i + 1)`, .. up to the first TSN missing. -/
def tsnsFromUpTo (q : PayloadQueue) : ℕ → U32 → List U32
  | 0, _ => []
  | n + 1, tsn => if tsn ∈ q.chunkMap then tsn :: q.tsnsFromUpTo n (tsn + 1) else []

/-- The TSNs such a loop visits. It goes at most once over each chunk. -/
def tsnsFrom (q : PayloadQueue) (tsn : U32) : List U32 := q.tsnsFromUpTo q.chunkMap.keys.length tsn

/-- `get_num_bytes`. -/
def getNumBytes (q : PayloadQueue) : ℕ := q.nBytes

/-- `len`; its assertion that `length` agrees is `PayloadQueue.WF.length_eq`. -/
def len (q : PayloadQueue) : ℕ := q.chunkMap.keys.length

/-- `is_empty`. -/
def isEmpty (q : PayloadQueue) : Bool := q.len = 0

end PayloadQueue

end Sctp
