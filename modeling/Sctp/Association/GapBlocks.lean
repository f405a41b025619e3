import Sctp.Queue.PayloadQueue

/-!
# What gap ack blocks are to tell
-/

namespace Sctp

namespace PayloadQueue

/-- All TSNs held lie where an offset of 16 bits from the cumulative TSN can show them, and
none is the next one. -/
def HeldNear (q : PayloadQueue) (cumulativeTsn : U32) : Prop :=
  ∀ t ∈ q.chunkMap, 2 ≤ Serial.dist cumulativeTsn t ∧ Serial.dist cumulativeTsn t ≤ 65535

/-- The blocks are in increasing order with gaps between them, and cover the TSNs held. -/
structure DescribesHeld (q : PayloadQueue) (cumulativeTsn : U32) (blocks : List GapAckBlock) :
    Prop where
  wellFormed : ∀ b ∈ blocks, 1 < b.start.toNat ∧ b.start.toNat ≤ b.end_.toNat
  separated : blocks.Pairwise fun b b' => b.end_.toNat + 1 < b'.start.toNat
  held_iff : ∀ t, t ∈ q.chunkMap ↔ ∃ b ∈ blocks, ∃ i : ℕ, b.start.toNat ≤ i ∧ i ≤ b.end_.toNat ∧
    t = cumulativeTsn.after i

end PayloadQueue

end Sctp
