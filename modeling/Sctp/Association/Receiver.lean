import Sctp.Association.Inbound
import Sctp.Lib.ReceiveWindow

/-!
# The receiving side as a system

The chunks that carry or skip data and the stream resets, as they arrive, and between them
the application, which accepts streams and reads from them.
-/

namespace Sctp

/-- What moves the receiving side: inbound chunks and the calls of the application. -/
inductive ReceiverOp where
  | data (d : ChunkPayloadData)
  | forwardTsn (c : ChunkForwardTsn)
  | reconfig (c : ChunkReconfig)
  | accept
  | read (streamIdentifier : U16) (bufLen : ℕ)

namespace AssociationInternal

/-- A `read_sctp` of the stream registered under an identifier. -/
def readStream (a : AssociationInternal) (streamIdentifier : U16) (bufLen : ℕ) :
    AssociationInternal :=
  a.modifyStream streamIdentifier fun s => (s.readSctp bufLen).1

/-- The association after an operation. -/
def receiverStep (a : AssociationInternal) : ReceiverOp → AssociationInternal
  | .data d => (a.handleData d).1
  | .forwardTsn c => (a.handleForwardTsn c).1
  | .reconfig c => (a.handleReconfig c).1
  | .accept => a.acceptStream.1
  | .read si bufLen => a.readStream si bufLen

/-- Whether a DATA chunk that arrives is handed to `Stream::handle_data`. -/
def handsOver (a : AssociationInternal) (d : ChunkPayloadData) : Bool :=
  a.payloadQueue.canPush d a.peerLastTsn &&
    match a.getOrCreateStream d.streamIdentifier with
    | (a, some _) => a.acceptsData d
    | (_, none) => false

/-- The TSNs an operation hands to a stream. -/
def handedOver (a : AssociationInternal) : ReceiverOp → List U32
  | .data d => if a.handsOver d then [d.tsn] else []
  | _ => []

/-- How far an operation moves `peer_last_tsn`. -/
def advance (a : AssociationInternal) (op : ReceiverOp) : ℕ :=
  Serial.dist a.peerLastTsn (a.receiverStep op).peerLastTsn

/-- The TSNs held lie ahead of `peer_last_tsn`, none directly after it. -/
structure HoldsAhead (a : AssociationInternal) : Prop where
  ahead : ∀ t ∈ a.payloadQueue.chunkMap, sna32lte t a.peerLastTsn = false ∧
    2 ≤ Serial.dist a.peerLastTsn t ∧ Serial.dist a.peerLastTsn t ≤ 2 ^ 31
  next_missing : a.peerLastTsn + 1 ∉ a.payloadQueue.chunkMap

/-- `peer_last_tsn` does not go back. -/
def KeepsPoint (a : AssociationInternal) (op : ReceiverOp) : Prop :=
  sna32lt (a.receiverStep op).peerLastTsn a.peerLastTsn = false ∧ a.advance op ≤ 2 ^ 31

end AssociationInternal

end Sctp
