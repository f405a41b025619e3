import Sctp.Association.Peers
import Sctp.Association.Sender

/-!
# One endpoint as a system

The endpoint acts, or a packet arrives, whoever has sent it.
-/

namespace Sctp

/-- What moves an endpoint: what it does of its own accord, and packets that arrive. -/
inductive EndpointOp where
  | act (op : LocalOp)
  | receive (now : ℕ) (p : Packet)

/-- The TSN up to which a chunk acknowledges everything. -/
def Chunk.cumulativeTsnAck? : Chunk → Option U32
  | .selectiveAck c => some c.cumulativeTsnAck
  | .shutdown cumulativeTsnAck => some cumulativeTsnAck
  | _ => none

namespace AssociationInternal

/-- An endpoint that has not done anything yet. -/
def endpoint (isClient : Bool) (config : Config) : AssociationInternal :=
  if isClient then client config else server config

/-- The endpoint after an operation. -/
def endpointStep (a : AssociationInternal) : EndpointOp → AssociationInternal
  | .act op => (a.localStep op).1
  | .receive now p => (a.handleInbound now p).1

/-- The packets that go out. -/
def endpointEmits (a : AssociationInternal) : EndpointOp → List Packet
  | .act op => (a.localStep op).2
  | .receive .. => []

/-! ## Acknowledgements -/

/-- Every cumulative acknowledgement that goes out tells `peer_last_tsn`. -/
def AcksTruthfully (a : AssociationInternal) (op : EndpointOp) : Prop :=
  ∀ p ∈ a.endpointEmits op, ∀ c ∈ p.chunks, ∀ t, c.cumulativeTsnAck? = some t →
    t = (a.endpointStep op).peerLastTsn

/-- The next gathering sends a SHUTDOWN. -/
def SendsShutdown (a : AssociationInternal) : Prop :=
  a.willSendShutdown = true ∧ (a.state = .shutdownPending ∨ a.state = .shutdownSent ∨
    a.state = .shutdownReceived ∨ a.state = .shutdownAckSent)

/-- A SHUTDOWN is sent when the points of the two directions have the same number. -/
def ShutsDownInStep (a : AssociationInternal) : EndpointOp → Prop
  | .act (.gather _) => a.SendsShutdown → a.cumulativeTsnAckPoint = a.peerLastTsn
  | _ => True

/-! ## Triggers -/

/-- No transmission is asked for. -/
def NoTrigger (a : AssociationInternal) : Prop :=
  a.willRetransmitFast = false ∧ a.willSendForwardTsn = false ∧
    a.willRetransmitReconfig = false ∧ a.ackState ≠ .immediate

instance (a : AssociationInternal) : Decidable a.NoTrigger :=
  inferInstanceAs (Decidable (_ ∧ _ ∧ _ ∧ _))

/-- Data can be outstanding. -/
def MayBeOutstanding (a : AssociationInternal) : Prop :=
  a.state = .established ∨ a.state = .shutdownPending ∨ a.state = .shutdownReceived

instance (a : AssociationInternal) : Decidable a.MayBeOutstanding :=
  inferInstanceAs (Decidable (_ ∨ _ ∨ _))

/-- While data can be outstanding, gathering serves every trigger; chunks that are given up in
front of all others are announced. -/
def ServesTriggers (a : AssociationInternal) : EndpointOp → Prop
  | .act (.gather now) =>
    a.MayBeOutstanding → (a.gatherOutbound now).1.NoTrigger ∧
      (a.willSendForwardTsn = true →
        sna32gt a.advancedPeerTsnAckPoint a.cumulativeTsnAckPoint = true →
        emits Chunk.isForwardTsn (a.gatherOutbound now).2.1 = true)
  | _ => True

instance (a : AssociationInternal) (op : EndpointOp) : Decidable (a.ServesTriggers op) :=
  match op with
  | .act (.gather now) => inferInstanceAs (Decidable (a.MayBeOutstanding →
      (a.gatherOutbound now).1.NoTrigger ∧ (a.willSendForwardTsn = true →
        sna32gt a.advancedPeerTsnAckPoint a.cumulativeTsnAckPoint = true →
        emits Chunk.isForwardTsn (a.gatherOutbound now).2.1 = true)))
  | .act (.openStream ..) | .act .acceptStream | .act (.setReliabilityParams ..) | .act (.write ..)
  | .act (.read ..) | .act (.shutdownStream ..) | .act .shutdown | .act (.timeout _)
  | .act .ackTimeout | .receive .. => isTrue trivial

/-- Gathering while a shutdown is under way finds no FORWARD TSN and no RECONFIG to be sent. -/
def GathersServed (a : AssociationInternal) : EndpointOp → Prop
  | .act (.gather _) =>
    a.state = .shutdownPending ∨ a.state = .shutdownReceived →
      a.willSendForwardTsn = false ∧ a.willRetransmitReconfig = false
  | _ => True

/-! ## Timers -/

/-- The T3-rtx timer runs exactly when chunks are in flight, and the reconfig timer exactly when
reset requests are outstanding. -/
def TimersRun (a : AssociationInternal) : Prop :=
  (a.t3rtx.isRunning = true ↔ a.inflightQueue.isEmpty = false) ∧
    (a.treconfig.isRunning = true ↔ a.reconfigs.entries ≠ [])

instance (a : AssociationInternal) : Decidable a.TimersRun := inferInstanceAs (Decidable (_ ∧ _))

/-- A packet with a SACK is accepted, and no packet closes the association. -/
def AcceptsSacks (a : AssociationInternal) : EndpointOp → Prop
  | .receive now p =>
    (p.chunks.any (fun c => c matches .selectiveAck _) = true →
        (a.handleInbound now p).2.isOk = true) ∧
      p.chunks.any (fun c => c matches .shutdownComplete) = false
  | .act _ => True

instance (a : AssociationInternal) (op : EndpointOp) : Decidable (a.AcceptsSacks op) :=
  match op with
  | .receive _ _ => inferInstanceAs (Decidable (_ ∧ _))
  | .act _ => isTrue trivial

end AssociationInternal

end Sctp
