import Sctp.Association.Internal
import Sctp.Queue.ReassemblyRuns

/-!
# The window an association advertises
-/

namespace Sctp

namespace AssociationInternal

/-- The bytes held in the reassembly queues of the registered streams. -/
def heldTotal (a : AssociationInternal) : ℕ :=
  a.streams.sumOf fun r => (a.objects[r]?.map (·.reassemblyQueue.heldBytes)).getD 0

/-- The queue of every registered stream has come about by pushes, reads and forwards. -/
def QueuesRun (a : AssociationInternal) : Prop :=
  ∀ si r s, a.streams.lookup si = some r → a.objects[r]? = some s →
    ∃ si' ops, Runs.Along ReassemblyQueue.applyOp ReassemblyQueue.PushesFresh
      (ReassemblyQueue.new si') ops ∧
        s.reassemblyQueue = Runs.run ReassemblyQueue.applyOp (ReassemblyQueue.new si') ops

/-- The maximum less the bytes held, or 0. -/
def AdvertisesRest (a : AssociationInternal) : Prop :=
  a.getMyReceiverWindowCredit.toNat = a.maxReceiveBufferSize.toNat - a.heldTotal

end AssociationInternal

end Sctp
