import Sctp.Wire.Chunk

/-!
# `queue/pending_queue.rs`

Chunks waiting for a TSN. While a fragmented message is being popped, `selected` and
`unorderedIsSelected` name the queue it comes from.
-/

namespace Sctp

/-- The two queues of what was written and is not sent yet. While a message is half popped,
`selected` is set and `unordered_is_selected` tells the queue its next chunk comes from. -/
structure PendingQueue where
  unorderedQueue : List ChunkPayloadData := []
  orderedQueue : List ChunkPayloadData := []
  queueLen : ℕ := 0
  nBytes : ℕ := 0
  selected : Bool := false
  unorderedIsSelected : Bool := false
deriving DecidableEq, Repr

namespace PendingQueue

/-- `PendingQueue::new`. -/
def new : PendingQueue := {}

/-- `push`: the flag of the chunk tells the queue. -/
def push (q : PendingQueue) (c : ChunkPayloadData) : PendingQueue :=
  let q := { q with nBytes := q.nBytes + c.userData.length }
  let q :=
    if c.unordered then
      { q with unorderedQueue := q.unorderedQueue ++ [c] }
    else
      { q with orderedQueue := q.orderedQueue ++ [c] }
  { q with queueLen := q.queueLen + 1 }

/-- `peek`: a message that is half popped goes on, else an unordered one comes first. -/
def peek (q : PendingQueue) : Option ChunkPayloadData :=
  if q.selected then
    if q.unorderedIsSelected then q.unorderedQueue.head? else q.orderedQueue.head?
  else
    match q.unorderedQueue.head? with
    | some c => some c
    | none => q.orderedQueue.head?

/-- `pop_front` of one of the two queues. -/
def popFront (q : PendingQueue) (unordered : Bool) : PendingQueue × Option ChunkPayloadData :=
  if unordered then
    ({ q with unorderedQueue := q.unorderedQueue.tail }, q.unorderedQueue.head?)
  else
    ({ q with orderedQueue := q.orderedQueue.tail }, q.orderedQueue.head?)

/-- The counters after a chunk has been popped. -/
def account (q : PendingQueue) (popped : Option ChunkPayloadData) : PendingQueue :=
  match popped with
  | some p => { q with nBytes := q.nBytes - p.userData.length, queueLen := q.queueLen - 1 }
  | none => q

/-- `pop` of the chunk that was peeked at; only a beginning fragment starts a message, and the
ending one ends it. -/
def pop (q : PendingQueue) (beginningFragment unordered : Bool) :
    PendingQueue × Option ChunkPayloadData :=
  if q.selected then
    let (q, popped) := q.popFront q.unorderedIsSelected
    let q :=
      match popped with
      | some p => if p.endingFragment then { q with selected := false } else q
      | none => q
    (q.account popped, popped)
  else if !beginningFragment then
    (q, none)
  else
    let (q, popped) := q.popFront unordered
    let q :=
      match popped with
      | some p =>
        if !p.endingFragment then
          { q with selected := true, unorderedIsSelected := unordered }
        else
          q
      | none => q
    (q.account popped, popped)

/-- `get_num_bytes`. -/
def getNumBytes (q : PendingQueue) : ℕ := q.nBytes

/-- `len`. -/
def len (q : PendingQueue) : ℕ := q.queueLen

/-- `is_empty`. -/
def isEmpty (q : PendingQueue) : Bool := q.len = 0

end PendingQueue

end Sctp
