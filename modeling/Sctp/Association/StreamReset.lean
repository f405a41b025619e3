import Sctp.Association.Outbound
import Sctp.Association.Receiver

/-!
# Resets of the streams the peer closes

A request of the peer is performed once `peer_last_tsn` has reached the last TSN the peer had
assigned, and is kept until then. The streams it names are unregistered; their objects stay
with the application.
-/

namespace Sctp

namespace AssociationInternal

/-! ## Deferred requests -/

/-- No request is kept whose TSN is reached. -/
def NoDueRequest (a : AssociationInternal) : Prop :=
  ∀ p ∈ a.reconfigRequests.values, sna32lte p.senderLastTsn a.peerLastTsn = false

/-- After the operation no request is kept whose TSN is reached. -/
def ResetsInTime (a : AssociationInternal) (op : ReceiverOp) : Prop :=
  (a.receiverStep op).NoDueRequest

/-- A FORWARD TSN that moves the point over the last TSN of a request that is kept is followed
by a chunk that is there already. -/
def RechecksRequests (a : AssociationInternal) : ReceiverOp → Prop
  | .forwardTsn c =>
    a.useForwardTsn = true → sna32lt a.peerLastTsn c.newCumulativeTsn = true →
      c.newCumulativeTsn + 1 ∈ a.payloadQueue.chunkMap ∨
        ∀ p ∈ a.reconfigRequests.values, sna32lte p.senderLastTsn c.newCumulativeTsn = false
  | _ => True

/-! ## Requests that arrive again -/

/-- The parameters of a RECONFIG chunk that are handled, each with the state it meets. -/
def handledParams (a : AssociationInternal) (c : ChunkReconfig) :
    List (AssociationInternal × Param) :=
  c.paramA.toList.map (a, ·) ++
    match a.handleReconfigParam? c.paramA with
    | (a', .ok _) => c.paramB.toList.map (a', ·)
    | (_, .error _) => []

end AssociationInternal

/-- What the peer sends, and the application's calls. -/
inductive StreamOp where
  | receive (op : ReceiverOp)
  | openStream (streamIdentifier : U16) (defaultPayloadType : PayloadProtocolIdentifier)
  | readSctp (r : StreamRef) (bufLen : ℕ)

/-- A request that arrives with the number of `p` is `p`. -/
def NumbersOne (p : ParamOutgoingResetRequest) : StreamOp → Prop
  | .receive (.reconfig c) =>
    ∀ p', c.paramA = some (.outgoingResetRequest p') ∨ c.paramB = some (.outgoingResetRequest p') →
      p'.reconfigRequestSequenceNumber = p.reconfigRequestSequenceNumber → p' = p
  | _ => True

namespace AssociationInternal

/-- The association after an operation. -/
def streamStep (a : AssociationInternal) : StreamOp → AssociationInternal
  | .receive op => a.receiverStep op
  | .openStream si ppi => (a.openStream si ppi).1
  | .readSctp r bufLen => (a.readSctp r bufLen).1

/-- The request is kept, and waits for its TSN. -/
def Keeps (a : AssociationInternal) (p : ParamOutgoingResetRequest) : Prop :=
  a.reconfigRequests.lookup p.reconfigRequestSequenceNumber = some p

/-- The request arrives when its TSN is reached, or has been kept and is no longer. -/
def Performs (a : AssociationInternal) (p : ParamOutgoingResetRequest) (op : StreamOp) : Prop :=
  (∃ c, op = .receive (.reconfig c) ∧ ∃ e ∈ a.handledParams c,
    e.2 = .outgoingResetRequest p ∧ sna32lte p.senderLastTsn e.1.peerLastTsn = true) ∨
  a.Keeps p ∧ ¬ (a.streamStep op).Keeps p

/-- Handling a copy of the request unregisters no stream object from number `since` on. -/
def SparesNewStreams (p : ParamOutgoingResetRequest) (since : ℕ) (a : AssociationInternal) :
    StreamOp → Prop
  | .receive (.reconfig c) =>
    ∀ e ∈ a.handledParams c, e.2 = .outgoingResetRequest p →
      ∀ si r, e.1.streams.lookup si = some r → since ≤ r →
        (e.1.handleReconfigParam e.2).1.streams.lookup si = some r
  | _ => True

/-- A copy of the request that arrives when its TSN is reached finds none of its streams
registered. -/
def FindsNoStream (p : ParamOutgoingResetRequest) (a : AssociationInternal) : StreamOp → Prop
  | .receive (.reconfig c) =>
    ∀ e ∈ a.handledParams c, e.2 = .outgoingResetRequest p →
      sna32lte p.senderLastTsn e.1.peerLastTsn = true →
        ∀ si ∈ p.streamIdentifiers, e.1.streams.lookup si = none
  | _ => True

/-! ## Reading across a reset -/

/-- The stream object is registered under some identifier. -/
def Registered (a : AssociationInternal) (r : StreamRef) : Prop :=
  ∃ si, a.streams.lookup si = some r

/-- What `read_sctp` answers on a stream that is not shut down. -/
def answerOfQueue (s : Stream) (bufLen : ℕ) :
    Option (Except Error (Bytes × PayloadProtocolIdentifier)) :=
  match (s.reassemblyQueue.read bufLen).2 with
  | .ok message => some (.ok message)
  | .error .errShortBuffer => some (.error .errShortBuffer)
  | .error _ => none

/-- A stream that is registered is read from its reassembly queue, and one that has been reset
reports its end. -/
def ReadsUntilReset (a : AssociationInternal) : StreamOp → Prop
  | .readSctp r bufLen => ∀ s, a.objects[r]? = some s →
    (a.Registered r → (a.readSctp r bufLen).2 = answerOfQueue s bufLen) ∧
    (¬ a.Registered r → (a.readSctp r bufLen).2 = some (.ok ([], .unknown)))
  | _ => True

/-- A stream that has been reset keeps what was not read of it. -/
def LeavesUnread (a : AssociationInternal) (op : StreamOp) : Prop :=
  ∀ (r : StreamRef) s, a.objects[r]? = some s → ¬ a.Registered r →
    (a.streamStep op).objects[r]? = some s ∧ ¬ (a.streamStep op).Registered r

end AssociationInternal

end Sctp
