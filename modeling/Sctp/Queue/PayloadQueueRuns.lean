import Sctp.Lib.Runs
import Sctp.Queue.PayloadQueue

/-!
# Runs of a payload queue

The operations on the queue, in any order and with any arguments, and what is to hold of the
five pieces of its state after them.
-/

namespace Sctp

/-- A call on a payload queue. The cells of the chunks are as they are at the time of the call. -/
inductive PayloadOp where
  | push (p : ChunkPayloadData) (cumulativeTsn : U32)
  | pushNoCheck (p : ChunkPayloadData)
  | pop (tsn : U32)
  | markAsAcked (tsn : U32)
  | markAllToRetransmit (flags : SharedFlags)
  | popDuplicates

/-- An acknowledged chunk has no data and is not sent again. -/
def ChunkPayloadData.BareIfAcked (c : ChunkPayloadData) : Prop :=
  c.acked = true → c.userData = [] ∧ c.retransmit = false

instance (c : ChunkPayloadData) : Decidable c.BareIfAcked :=
  inferInstanceAs (Decidable (_ → _))

/-- What is pushed is not marked as acknowledged, or looks as if it had been. -/
def PayloadOp.PushesBare : PayloadOp → Prop
  | .push p _ | .pushNoCheck p => p.BareIfAcked
  | _ => True

namespace PayloadQueue

/-- The queue after an operation. -/
def applyOp (q : PayloadQueue) : PayloadOp → PayloadQueue
  | .push p cumulativeTsn => (q.push p cumulativeTsn).1
  | .pushNoCheck p => q.pushNoCheck p
  | .pop tsn => (q.pop tsn).1
  | .markAsAcked tsn => (q.markAsAcked tsn).1
  | .markAllToRetransmit flags => q.markAllToRetransmit flags
  | .popDuplicates => q.popDuplicates.1

/-- What is pushed without a check has a TSN that is not held. -/
def PushesNew (q : PayloadQueue) : PayloadOp → Prop
  | .pushNoCheck p => p.tsn ∉ q.chunkMap
  | _ => True

instance (q : PayloadQueue) (op : PayloadOp) : Decidable (q.PushesNew op) :=
  match op with
  | .pushNoCheck p => inferInstanceAs (Decidable (p.tsn ∉ q.chunkMap))
  | .push .. | .pop _ | .markAsAcked _ | .markAllToRetransmit _ | .popDuplicates => isTrue trivial

/-- The pieces of the state agree with the map. -/
structure Represents (q : PayloadQueue) : Prop where
  sorted_perm : q.sorted.Perm q.chunkMap.keys
  /-- The assertion of `len`. -/
  length_eq : q.length = q.len
  nBytes_eq : q.nBytes = q.chunkMap.sumOf (·.userData.length)
  increasing : ∀ base, (∀ t ∈ q.chunkMap, Serial.dist base t < 2 ^ 31) →
    q.sorted.Pairwise fun t t' => sna32lt t t' = true

/-- No counter is taken below zero. -/
def NoUnderflow (q : PayloadQueue) : PayloadOp → Prop
  | .pop tsn => ∀ c, (q.pop tsn).2 = some c → 0 < q.length ∧ c.userData.length ≤ q.nBytes
  | .markAsAcked tsn => ∀ c, q.get tsn = some c → c.userData.length ≤ q.nBytes
  | _ => True

/-- Every acknowledged entry has lost its data and is not sent again. -/
def AckedBare (q : PayloadQueue) : Prop := ∀ t c, q.get t = some c → c.BareIfAcked

end PayloadQueue

end Sctp
