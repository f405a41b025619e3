import Sctp.Association.Outbound
import Sctp.Association.Receiver
import Sctp.Lib.Runs

/-!
# Reports of duplicates

What arrives at the receiver, and between that the SACKs it builds.
-/

namespace Sctp

/-- The receiver's operations, and the making of a SACK. -/
inductive ArrivalOp where
  | receive (op : ReceiverOp)
  | sack

namespace AssociationInternal

/-- The association after an operation. -/
def arrivalStep (a : AssociationInternal) : ArrivalOp → AssociationInternal
  | .receive op => a.receiverStep op
  | .sack => a.createSelectiveAckChunk.1

/-- The chunk is held already, or its TSN is not beyond `peer_last_tsn`. -/
def isDuplicate (a : AssociationInternal) (d : ChunkPayloadData) : Bool :=
  decide (d.tsn ∈ a.payloadQueue.chunkMap) || sna32lte d.tsn a.peerLastTsn

/-- The TSNs that arrive as duplicates. -/
def duplicates (a : AssociationInternal) : ArrivalOp → List U32
  | .receive (.data d) => if a.isDuplicate d then [d.tsn] else []
  | _ => []

/-- The TSNs a SACK reports as duplicates. -/
def reported (a : AssociationInternal) : ArrivalOp → List U32
  | .sack => a.createSelectiveAckChunk.2.duplicateTsn
  | _ => []

/-- The duplicates of the run, in the order of their arrival, are those that its SACKs report
and then those that are still recorded. -/
def ReportsDuplicates (a : AssociationInternal) (ops : List ArrivalOp) : Prop :=
  (Runs.outputs arrivalStep reported a ops).flatten ++
      (Runs.run arrivalStep a ops).payloadQueue.dupTsn =
    (Runs.outputs arrivalStep duplicates a ops).flatten

/-- What arrives is no duplicate. -/
def ArrivesFirst (a : AssociationInternal) : ArrivalOp → Prop
  | .receive (.data d) => a.isDuplicate d = false
  | _ => True

end AssociationInternal

end Sctp
