import Sctp.Wire.Packet
import Sctp.Queue.PayloadQueue
import Sctp.Stream

/-!
# `AssociationInternal`

The state of an association and the small operations on it. The streams are objects
(`Arc<Stream>`) that the map of registered streams, the accept channel and the application
share, so they lie in `objects` and everything else holds their addresses. The notifications
of tasks (write loop, readers, handshake), the statistics and the log are left out.
-/

namespace Sctp

/-- An `Arc<Stream>`: the address in `objects`. -/
abbrev StreamRef := ℕ

/-- The state that `association_internal.rs` keeps under its lock, with the streams as indices into
a table of objects and the flags of messages in a table of cells. -/
structure AssociationInternal where
  state : AssociationState := .closed
  maxMessageSize : U32 := defaultMaxMessageSize
  willSendShutdown : Bool := false
  peerVerificationTag : U32 := 0
  myVerificationTag : U32 := 0
  myNextTsn : U32 := 0
  peerLastTsn : U32 := 0
  minTsn2measureRtt : U32 := 0
  willSendForwardTsn : Bool := false
  willRetransmitFast : Bool := false
  willRetransmitReconfig : Bool := false
  willSendShutdownAck : Bool := false
  willSendShutdownComplete : Bool := false
  myNextRsn : U32 := 0
  reconfigs : AssocMap U32 ChunkReconfig := ∅
  reconfigRequests : AssocMap U32 ParamOutgoingResetRequest := ∅
  sourcePort : U16 := 0
  destinationPort : U16 := 0
  myMaxNumInboundStreams : U16 := 0
  myMaxNumOutboundStreams : U16 := 0
  myCookie : Option Bytes := none
  payloadQueue : PayloadQueue := {}
  inflightQueue : PayloadQueue := {}
  pendingQueue : PendingQueue := {}
  controlQueue : List Packet := []
  mtu : U32 := 0
  maxPayloadSize : U32 := 0
  cumulativeTsnAckPoint : U32 := 0
  advancedPeerTsnAckPoint : U32 := 0
  useForwardTsn : Bool := false
  maxReceiveBufferSize : U32 := 0
  cwnd : U32 := 0
  rwnd : U32 := 0
  ssthresh : U32 := 0
  partialBytesAcked : U32 := 0
  inFastRecovery : Bool := false
  fastRecoverExitPoint : U32 := 0
  rtoMgr : RtoManager := {}
  t1init : RtxTimer := {}
  t1cookie : RtxTimer := {}
  t2shutdown : RtxTimer := {}
  t3rtx : RtxTimer := {}
  treconfig : RtxTimer := {}
  ackTimer : AckTimer := {}
  storedInit : Option ChunkInit := none
  storedCookieEcho : Option Bytes := none
  streams : AssocMap U16 StreamRef := ∅
  /-- The streams in the accept channel, when there is one. -/
  acceptCh : Option (List StreamRef) := none
  delayedAckTriggered : Bool := false
  immediateAckTriggered : Bool := false
  ackState : AckState := .idle
  ackMode : AckMode := .normal
  /-- The stream objects. -/
  objects : List Stream := []
  /-- The flag cells of the chunks. -/
  flags : SharedFlags := []
  /-- The cookie `ParamStateCookie::new` will draw. -/
  newCookie : Bytes := []

/-- The configuration of an association, with what it draws at random. -/
structure Config where
  maxReceiveBufferSize : U32 := 0
  maxMessageSize : U32 := 0
  randomTsn : U32
  randomTag : U32
  randomCookie : Bytes

namespace ChunkInit

/-- `set_supported_extensions`. -/
def setSupportedExtensions (c : ChunkInit) : ChunkInit :=
  { c with params := c.params ++ [.supportedExtensions [ctReconfig, ctForwardTsn]] }

end ChunkInit

namespace AssociationInternal

/-- `AssociationInternal::new`, with the numbers that are drawn at random taken from the
configuration. -/
def new (config : Config) : AssociationInternal :=
  let tsn := if config.randomTsn = 0 then 1 else config.randomTsn
  { maxReceiveBufferSize :=
      if config.maxReceiveBufferSize = 0 then initialRecvBufSize else config.maxReceiveBufferSize
    maxMessageSize :=
      if config.maxMessageSize = 0 then defaultMaxMessageSize else config.maxMessageSize
    myMaxNumOutboundStreams := 65535
    myMaxNumInboundStreams := 65535
    mtu := initialMtu
    maxPayloadSize := initialMtu - (commonHeaderSize + dataChunkHeaderSize)
    myVerificationTag := config.randomTag
    myNextTsn := tsn
    myNextRsn := tsn
    minTsn2measureRtt := tsn
    cumulativeTsnAckPoint := tsn - 1
    advancedPeerTsnAckPoint := tsn - 1
    acceptCh := some []
    cwnd := cmpMin (4 * initialMtu) (cmpMax (2 * initialMtu) 4380)
    newCookie := config.randomCookie }

/-- `create_packet`. -/
def createPacket (a : AssociationInternal) (chunks : List Chunk) : Packet :=
  { verificationTag := a.peerVerificationTag
    sourcePort := a.sourcePort
    destinationPort := a.destinationPort
    chunks }

/-- `set_state`. -/
def setState (a : AssociationInternal) (newState : AssociationState) : AssociationInternal :=
  { a with state := newState }

/-- The INIT of `Association::new`. -/
def initialInit (a : AssociationInternal) : ChunkInit :=
  ChunkInit.setSupportedExtensions
    { initialTsn := a.myNextTsn
      numOutboundStreams := a.myMaxNumOutboundStreams
      numInboundStreams := a.myMaxNumInboundStreams
      initiateTag := a.myVerificationTag
      advertisedReceiverWindowCredit := a.maxReceiveBufferSize }

/-- `send_init`. -/
def sendInit (a : AssociationInternal) : AssociationInternal × Except Error Unit :=
  match a.storedInit with
  | some storedInit =>
    let a := { a with sourcePort := 5000, destinationPort := 5000 }
    let outbound := a.createPacket [.init storedInit]
    ({ a with controlQueue := a.controlQueue ++ [outbound] }, .ok ())
  | none => (a, .error .errInitNotStoredToSend)

/-- `send_cookie_echo`. -/
def sendCookieEcho (a : AssociationInternal) : AssociationInternal × Except Error Unit :=
  match a.storedCookieEcho with
  | some cookie =>
    let outbound := a.createPacket [.cookieEcho cookie]
    ({ a with controlQueue := a.controlQueue ++ [outbound] }, .ok ())
  | none => (a, .error .errCookieEchoNotStoredToSend)

/-- What `Association::new` does for a server. -/
def server (config : Config) : AssociationInternal := new config

/-- What `Association::new` does for a client: it sends an INIT and starts T1-init. -/
def client (config : Config) : AssociationInternal :=
  let a := new config
  let init := a.initialInit
  let a := { a.setState .cookieWait with storedInit := some init }
  let (a, _) := a.sendInit
  { a with t1init := a.t1init.start }

/-! ## Streams -/

/-- The stream object registered under an identifier. -/
def stream? (a : AssociationInternal) (si : U16) : Option Stream :=
  (a.streams.lookup si).bind fun r => a.objects[r]?

/-- An operation on a stream object. -/
def modifyObject (a : AssociationInternal) (r : StreamRef) (f : Stream → Stream) :
    AssociationInternal :=
  { a with objects := a.objects.modify r f }

/-- An operation on the stream registered under an identifier, if there is one. -/
def modifyStream (a : AssociationInternal) (si : U16) (f : Stream → Stream) :
    AssociationInternal :=
  match a.streams.lookup si with
  | some r => a.modifyObject r f
  | none => a

/-- `unregister_stream`: the entry goes, and the object is shut down. -/
def unregisterStream (a : AssociationInternal) (streamIdentifier : U16) : AssociationInternal :=
  match a.streams.lookup streamIdentifier with
  | some r =>
    { a with streams := a.streams.erase streamIdentifier }.modifyObject r fun s =>
      { s with readShutdown := true, writeShutdown := true }
  | none => a

/-- `create_stream`: a new object, which is dropped again when it cannot be accepted. -/
def createStream (a : AssociationInternal) (streamIdentifier : U16) (accept : Bool) :
    AssociationInternal × Option StreamRef :=
  let r := a.objects.length
  let s := Stream.new streamIdentifier a.maxPayloadSize
  if accept then
    match a.acceptCh with
    | some ch =>
      if ch.length < acceptChSize then
        ({ a with
            objects := a.objects ++ [s]
            acceptCh := some (ch ++ [r])
            streams := a.streams.insert streamIdentifier r }, some r)
      else
        (a, none)
    | none => (a, none)
  else
    ({ a with
        objects := a.objects ++ [s]
        streams := a.streams.insert streamIdentifier r }, some r)

/-- `get_or_create_stream`. -/
def getOrCreateStream (a : AssociationInternal) (streamIdentifier : U16) :
    AssociationInternal × Option StreamRef :=
  match a.streams.lookup streamIdentifier with
  | some r => (a, some r)
  | none => a.createStream streamIdentifier true

/-- `open_stream`. -/
def openStream (a : AssociationInternal) (streamIdentifier : U16)
    (defaultPayloadType : PayloadProtocolIdentifier) :
    AssociationInternal × Except Error StreamRef :=
  match a.streams.lookup streamIdentifier with
  | some _ => (a, .error .errStreamAlreadyExist)
  | none =>
    match a.createStream streamIdentifier false with
    | (a, some r) => (a.modifyObject r (·.setDefaultPayloadType defaultPayloadType), .ok r)
    | (a, none) => (a, .error .errStreamCreateFailed)

/-- `accept_stream` takes a stream out of the channel. -/
def acceptStream (a : AssociationInternal) : AssociationInternal × Option StreamRef :=
  match a.acceptCh with
  | some (r :: ch) => ({ a with acceptCh := some ch }, some r)
  | _ => (a, none)

/-- The bytes queued in the reassembly queues, added up as `u32`s. -/
def bytesQueued (a : AssociationInternal) : U32 :=
  a.streams.entries.foldl
    (fun n e =>
      n + BitVec.ofNat 32 ((a.objects[e.2]?.map (·.getNumBytesInReassemblyQueue)).getD 0)) 0

/-- `get_my_receiver_window_credit`. -/
def getMyReceiverWindowCredit (a : AssociationInternal) : U32 :=
  if a.bytesQueued ≥ a.maxReceiveBufferSize then 0 else a.maxReceiveBufferSize - a.bytesQueued

/-- `close`, except for the notification of the read and write loops. -/
def close (a : AssociationInternal) : AssociationInternal :=
  if a.state ≠ .closed then
    let a := a.setState .closed
    let a :=
      { a with
        t1init := a.t1init.stop
        t1cookie := a.t1cookie.stop
        t2shutdown := a.t2shutdown.stop
        t3rtx := a.t3rtx.stop
        treconfig := a.treconfig.stop
        ackTimer := a.ackTimer.stop }
    a.streams.keys.foldl unregisterStream a
  else
    a

end AssociationInternal

end Sctp
