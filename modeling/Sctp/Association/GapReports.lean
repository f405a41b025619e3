import Sctp.Association.Outbound
import Sctp.Queue.PayloadQueueTheorems

/-!
# What a SACK reports to hold

Gap blocks give TSNs by their offset from the cumulative TSN, in 16 bits. A TSN held further
away shows at another offset, where the sender may have a chunk that has not arrived.
-/

namespace Sctp

/-- Where `t` shows in the 16 bits of an offset from `base`. A TSN that is the smaller number
shows at 0. -/
def shownOffset (base t : U32) : ℕ :=
  if base.toNat ≤ t.toNat then (t.toNat - base.toNat) % 2 ^ 16 else 0

/-- `t'` shows one further than `t`; 0 comes after 65535. -/
def showsNext (base t t' : U32) : Bool :=
  (shownOffset base t + 1) % 2 ^ 16 == shownOffset base t'

namespace PayloadQueue

/-- The TSNs held, cut wherever the next one does not show one further. -/
def stretches (q : PayloadQueue) (base : U32) : List (List U32) :=
  q.sorted.splitBy (showsNext base)

/-- The ends of a stretch, as they show. -/
def shownFirst (base : U32) (stretch : List U32) : ℕ := shownOffset base (stretch.headD base)

/-- The offset shown for the last TSN of a stretch. -/
def shownLast (base : U32) (stretch : List U32) : ℕ := shownOffset base (stretch.getLastD base)

/-- Up to the first stretch that begins at 0, a TSN that shows between the ends of its stretch
shows where a TSN is held. -/
def ShowsHeld (q : PayloadQueue) (base : U32) : Prop :=
  ∀ stretch ∈ (q.stretches base).takeWhile fun stretch => shownFirst base stretch != 0,
    ∀ t ∈ stretch, shownFirst base stretch ≤ shownOffset base t →
      shownOffset base t ≤ shownLast base stretch →
        base.after (shownOffset base t) ∈ q.chunkMap

instance (q : PayloadQueue) (base : U32) : Decidable (q.ShowsHeld base) :=
  -- over the lists, not over all TSNs
  @List.decidableBAll _ _ (fun stretch => @List.decidableBAll _ _ (fun _ => inferInstance) stretch) _

end PayloadQueue

namespace AssociationInternal

/-- What `s` has in flight is consecutive from its ack point on, which is not ahead of what
`a` has in sequence, and contains all that `a` holds beyond it. -/
structure SendsTo (s a : AssociationInternal) : Prop where
  contiguous : ∃ n < 2 ^ 32, s.inflightQueue.Spans s.cumulativeTsnAckPoint n
  holds : ∀ t, t ∈ a.payloadQueue.chunkMap → t ∈ s.inflightQueue.chunkMap
  behind : sna32lte s.cumulativeTsnAckPoint a.peerLastTsn = true

/-- The SACK of `a` makes `s` pop or mark only chunks that `a` has in sequence or holds. -/
def AcksOnlyHeld (s a : AssociationInternal) (now : ℕ) : Prop :=
  let s' := (s.processSelectiveAck now a.createSelectiveAckChunk.2).1
  ∀ t c, s.inflightQueue.get t = some c →
    (s'.inflightQueue.get t = none ∨
      c.acked = false ∧ ∃ c', s'.inflightQueue.get t = some c' ∧ c'.acked = true) →
    sna32lte t a.peerLastTsn = true ∨ t ∈ a.payloadQueue.chunkMap

end AssociationInternal

end Sctp
