import Sctp.Association.Peers

/-!
# The handshake

What the handshake is to establish: the two ends agree on each other's verification tag,
initial TSN and ports, and respect what the other one announced.
-/

namespace Sctp

namespace AssociationInternal

/-! ## Announced parameters -/

/-- The handler of an INIT or INIT ACK. -/
def handleInitOrAck (a : AssociationInternal) (p : Packet) (i : ChunkInit) :
    AssociationInternal × Except Error (List Packet) :=
  if i.isAck then a.handleInitAck p i else a.handleInit p i

/-- The chunk is taken, and neither refused nor dropped. -/
def AcceptsInit (a : AssociationInternal) (p : Packet) (i : ChunkInit) : Prop :=
  (a.handleInitOrAck p i).2.isOk = true ∧ (i.isAck = true →
    a.state = .cookieWait ∧ a.sourcePort = p.destinationPort ∧ a.destinationPort = p.sourcePort)

/-- The stream counts and the window are within what the peer announced. -/
structure RespectsPeer (a : AssociationInternal) (i : ChunkInit) : Prop where
  outbound : a.myMaxNumOutboundStreams ≤ i.numInboundStreams
  inbound : a.myMaxNumInboundStreams ≤ i.numOutboundStreams
  window : a.rwnd = i.advertisedReceiverWindowCredit

/-- The announced numbers at which taking the minimum with the wrong one of them, and leaving
the window alone in `handle_init`, makes no difference. -/
structure SymmetricOffer (a : AssociationInternal) (i : ChunkInit) : Prop where
  outbound : i.numOutboundStreams ≤ i.numInboundStreams ∨
    a.myMaxNumOutboundStreams ≤ i.numInboundStreams
  inbound : i.numInboundStreams ≤ i.numOutboundStreams ∨
    a.myMaxNumInboundStreams ≤ i.numOutboundStreams
  window : i.isAck = false → a.rwnd = i.advertisedReceiverWindowCredit

/-! ## Agreement -/

/-- What an endpoint has to know of its peer. -/
structure KnowsPeer (a peer : AssociationInternal) (initialTsn : U32) : Prop where
  peerVerificationTag : a.peerVerificationTag = peer.myVerificationTag
  peerLastTsn : a.peerLastTsn = initialTsn - 1

/-- An endpoint that is established agrees with its peer, which is about to be established
and agrees with it. -/
structure Agreed (a peer : AssociationInternal) (initialTsn peerInitialTsn : U32) : Prop where
  knows : a.KnowsPeer peer peerInitialTsn
  sourcePort : a.sourcePort = peer.destinationPort
  destinationPort : a.destinationPort = peer.sourcePort
  useForwardTsn : a.useForwardTsn = true
  peerState : peer.state = .cookieEchoed ∨ peer.state = .established
  peerKnows : peer.KnowsPeer a initialTsn

end AssociationInternal

namespace Peers

/-- The endpoints do nothing but shake hands. -/
def Handshakes : PeerEvent → Prop
  | .act _ (.gather _) | .act _ (.timeout .t1Init) | .act _ (.timeout .t1Cookie) => True
  | .act .. => False
  | .deliver .. => True

instance (e : PeerEvent) : Decidable (Handshakes e) := by
  unfold Handshakes
  split <;> infer_instance

/-- The initial TSN of an endpoint. -/
def initialTsn (config : Config) : U32 := (AssociationInternal.new config).myNextTsn

/-! ## INITs -/

/-- An INIT that the receiver's `check_packet` lets pass. -/
def AcceptableInit (p : Packet) : Prop := p.verificationTag = 0 ∧ p.checkPacket.isOk = true

instance (p : Packet) : Decidable (AcceptableInit p) := inferInstanceAs (Decidable (_ ∧ _))

/-- The packet `send_init` queues, if any, is acceptable. -/
def SendsAcceptableInit (s : Peers) : PeerEvent → Prop
  | .act x (.timeout .t1Init) =>
    ∀ p ∈ (s.party x).sendInit.1.controlQueue.drop (s.party x).controlQueue.length, AcceptableInit p
  | _ => True

/-- T1-init does not fire, with an INIT stored, at an endpoint that has taken an INIT of its
peer, for which it has made its cookie. -/
def ResendsInitEarly (s : Peers) : PeerEvent → Prop
  | .act x (.timeout .t1Init) => (s.party x).storedInit ≠ none → (s.party x).myCookie = none
  | _ => True

end Peers

end Sctp
