import Sctp.Association.Outbound
import Sctp.Lib.TwoParty

/-!
# Two associations and the network between them

Each endpoint runs the association's code; its packets are those its write loop has taken
out of `gather_outbound`. The packets travel as they are parsed, without their bytes.
-/

namespace Sctp

/-- What an endpoint does of its own accord: calls of the application, the write loop and the
timers, which may fire at any time. -/
inductive LocalOp where
  | openStream (streamIdentifier : U16) (defaultPayloadType : PayloadProtocolIdentifier)
  | acceptStream
  | setReliabilityParams (r : StreamRef) (unordered : Bool) (relType : ReliabilityType)
      (relVal : U32)
  | write (r : StreamRef) (p : Bytes) (ppi : PayloadProtocolIdentifier)
  | read (r : StreamRef) (bufLen : ℕ)
  | shutdownStream (r : StreamRef) (how : Shutdown)
  | shutdown
  | gather (now : ℕ)
  | timeout (id : RtxTimerId)
  | ackTimeout

namespace AssociationInternal

/-- The new state, and the packets that go out. -/
def localStep (a : AssociationInternal) : LocalOp → AssociationInternal × List Packet
  | .openStream si ppi => ((a.openStream si ppi).1, [])
  | .acceptStream => (a.acceptStream.1, [])
  | .setReliabilityParams r unordered relType relVal =>
    (a.modifyObject r (·.setReliabilityParams unordered relType relVal), [])
  | .write r p ppi => ((a.writeSctp r p ppi).1, [])
  | .read r bufLen => ((a.readSctp r bufLen).1, [])
  | .shutdownStream r how => ((a.shutdownStream r how).1, [])
  | .shutdown => (a.shutdown.1, [])
  | .gather now => ((a.gatherOutbound now).1, (a.gatherOutbound now).2.1)
  | .timeout id => (a.onRetransmissionTimeout id, [])
  | .ackTimeout => (a.onAckTimeout, [])

end AssociationInternal

/-- The two endpoints and every packet they have sent. -/
abbrev Peers := TwoParty.State AssociationInternal Packet

/-- The time of a delivery is the system time of the receiver. -/
abbrev PeerEvent := TwoParty.Event LocalOp ℕ

/-- An endpoint as a party that sends packets. -/
def endpointProtocol : TwoParty.Protocol AssociationInternal Packet LocalOp ℕ where
  act := AssociationInternal.localStep
  receive a now p := (a.handleInbound now p).1

namespace Peers

/-- The two endpoints after an event. -/
def step : Peers → PeerEvent → Peers := endpointProtocol.step

/-- Two endpoints that have not sent anything yet, each a client or a server. -/
def start (isClient : Bool → Bool) (config : Bool → Config) : Peers where
  party x :=
    if isClient x then AssociationInternal.client (config x)
    else AssociationInternal.server (config x)
  sent _ := []

end Peers

end Sctp
