import Sctp.Association.Types
import Sctp.Error
import Sctp.Queue.PendingQueue
import Sctp.Queue.ReassemblyQueue
import Sctp.Queue.SharedFlag

/-!
# `stream/mod.rs`

A stream and its operations. The association's state, message size limit, pending queue
and flag cells, which the streams share, are passed in.
-/

namespace Sctp

/-- What a message may cost: any number of retransmissions, a limited number, or a limited time. -/
inductive ReliabilityType where
  | reliable
  | rexmit
  | timed
deriving DecidableEq, Repr

/-- `std::net::Shutdown`. -/
inductive Shutdown where
  | read
  | write
  | both
deriving DecidableEq, Repr

/-- A stream object, with the fields that the modelled functions use. -/
structure Stream where
  maxPayloadSize : U32 := 0
  streamIdentifier : U16 := 0
  defaultPayloadType : PayloadProtocolIdentifier := .unknown
  reassemblyQueue : ReassemblyQueue := {}
  sequenceNumber : U16 := 0
  readShutdown : Bool := false
  writeShutdown : Bool := false
  unordered : Bool := false
  reliabilityType : ReliabilityType := .reliable
  reliabilityValue : U32 := 0
  bufferedAmount : ℕ := 0
  bufferedAmountLow : ℕ := 0
deriving DecidableEq, Repr

namespace Stream

/-- `Stream::new`. -/
def new (streamIdentifier : U16) (maxPayloadSize : U32) : Stream :=
  { maxPayloadSize, streamIdentifier, reassemblyQueue := ReassemblyQueue.new streamIdentifier }

/-- `set_default_payload_type`. -/
def setDefaultPayloadType (s : Stream) (ppi : PayloadProtocolIdentifier) : Stream :=
  { s with defaultPayloadType := ppi }

/-- `set_reliability_params`. -/
def setReliabilityParams (s : Stream) (unordered : Bool) (relType : ReliabilityType)
    (relVal : U32) : Stream :=
  { s with unordered, reliabilityType := relType, reliabilityValue := relVal }

/-- One round of `read_sctp` on a stream that is not shut down: `none` when it would wait. -/
def readSctp (s : Stream) (bufLen : ℕ) :
    Stream × Option (Except Error (Bytes × PayloadProtocolIdentifier)) :=
  if s.readShutdown then
    (s, some (.ok ([], .unknown)))
  else
    match s.reassemblyQueue.read bufLen with
    | (q, .ok r) => ({ s with reassemblyQueue := q }, some (.ok r))
    | (q, .error .errShortBuffer) =>
      ({ s with reassemblyQueue := q }, some (.error .errShortBuffer))
    | (q, .error _) => ({ s with reassemblyQueue := q }, none)

/-- `handle_data`, and whether the reader is notified. -/
def handleData (s : Stream) (pd : ChunkPayloadData) : Stream × Bool :=
  match s.reassemblyQueue.push pd with
  | (q, true) => ({ s with reassemblyQueue := q }, q.isReadable)
  | (q, false) => ({ s with reassemblyQueue := q }, false)

/-- `handle_forward_tsn_for_ordered`, which leaves an unordered stream alone; tells whether to
notify. -/
def handleForwardTsnForOrdered (s : Stream) (ssn : U16) : Stream × Bool :=
  if s.unordered then
    (s, false)
  else
    let q := s.reassemblyQueue.forwardTsnForOrdered ssn
    ({ s with reassemblyQueue := q }, q.isReadable)

/-- `handle_forward_tsn_for_unordered`, which leaves an ordered stream alone; tells whether to
notify. -/
def handleForwardTsnForUnordered (s : Stream) (newCumulativeTsn : U32) : Stream × Bool :=
  if !s.unordered then
    (s, false)
  else
    let q := s.reassemblyQueue.forwardTsnForUnordered newCumulativeTsn
    ({ s with reassemblyQueue := q }, q.isReadable)

/-- The fragments of `raw` from offset `i` on. `fuel` bounds the rounds of the loop; it does
not end when `max_payload_size` is 0. -/
def fragments (s : Stream) (unordered : Bool) (ppi : PayloadProtocolIdentifier)
    (headAbandoned headAllInflight : SharedFlag) (raw : Bytes) :
    ℕ → ℕ → List ChunkPayloadData
  | 0, _ => []
  | fuel + 1, i =>
    let remaining := raw.length - i
    if remaining = 0 then
      []
    else
      let fragmentSize := min s.maxPayloadSize.toNat remaining
      let chunk : ChunkPayloadData :=
        { streamIdentifier := s.streamIdentifier
          userData := (raw.drop i).take fragmentSize
          unordered
          beginningFragment := i = 0
          endingFragment := remaining - fragmentSize = 0
          immediateSack := false
          payloadType := ppi
          streamSequenceNumber := s.sequenceNumber
          abandoned := headAbandoned
          allInflight := headAllInflight }
      chunk :: fragments s unordered ppi headAbandoned headAllInflight raw fuel (i + fragmentSize)

/-- `packetize`: the chunks of a message, all with the same two new flag cells. -/
def packetize (s : Stream) (flags : SharedFlags) (raw : Bytes) (ppi : PayloadProtocolIdentifier) :
    Stream × SharedFlags × List ChunkPayloadData :=
  let unordered := ppi ≠ .dcep && s.unordered
  let (headAbandoned, flags) := flags.alloc
  let (headAllInflight, flags) := flags.alloc
  let chunks := s.fragments unordered ppi headAbandoned headAllInflight raw raw.length 0
  let s := if !unordered then { s with sequenceNumber := s.sequenceNumber + 1 } else s
  ({ s with bufferedAmount := s.bufferedAmount + raw.length }, flags, chunks)

/-- The pushes of `send_payload_data`, one after the other. -/
def sendPayloadData (state : AssociationState) (pendingQueue : PendingQueue)
    (chunks : List ChunkPayloadData) : PendingQueue × Except Error Unit :=
  if state ≠ .established then
    (pendingQueue, .error .errPayloadDataStateNotExist)
  else
    (chunks.foldl PendingQueue.push pendingQueue, .ok ())

/-- `write_sctp`. -/
def writeSctp (s : Stream) (maxMessageSize : U32) (state : AssociationState) (flags : SharedFlags)
    (pendingQueue : PendingQueue) (p : Bytes) (ppi : PayloadProtocolIdentifier) :
    Stream × SharedFlags × PendingQueue × Except Error ℕ :=
  if s.writeShutdown then
    (s, flags, pendingQueue, .error .errStreamClosed)
  else if p.length > maxMessageSize.toNat then
    (s, flags, pendingQueue, .error .errOutboundPacketTooLarge)
  else
    match state with
    | .shutdownSent | .shutdownAckSent | .shutdownPending | .shutdownReceived =>
      (s, flags, pendingQueue, .error .errStreamClosed)
    | _ =>
      let (s, flags, chunks) := s.packetize flags p ppi
      match sendPayloadData state pendingQueue chunks with
      | (pendingQueue, .ok ()) => (s, flags, pendingQueue, .ok p.length)
      | (pendingQueue, .error e) => (s, flags, pendingQueue, .error e)

/-- The end-of-stream marker of `send_reset_request`: a chunk with no user data. -/
def eosMarker (streamIdentifier : U16) (abandoned allInflight : SharedFlag) : ChunkPayloadData :=
  { streamIdentifier, beginningFragment := true, endingFragment := true, abandoned, allInflight }

/-- `send_reset_request`: an end of stream marker is queued, in an established association only. -/
def sendResetRequest (streamIdentifier : U16) (state : AssociationState) (flags : SharedFlags)
    (pendingQueue : PendingQueue) : SharedFlags × PendingQueue × Except Error Unit :=
  if state ≠ .established then
    (flags, pendingQueue, .error .errResetPacketInStateNotExist)
  else
    let (abandoned, flags) := flags.alloc
    let (allInflight, flags) := flags.alloc
    (flags, pendingQueue.push (eosMarker streamIdentifier abandoned allInflight), .ok ())

/-- `Stream::shutdown`. -/
def shutdown (s : Stream) (state : AssociationState) (flags : SharedFlags)
    (pendingQueue : PendingQueue) (how : Shutdown) :
    Stream × SharedFlags × PendingQueue × Except Error Unit :=
  if s.readShutdown && s.writeShutdown then
    (s, flags, pendingQueue, .ok ())
  else
    let s := if how = .write ∨ how = .both then { s with writeShutdown := true } else s
    let s := if how = .read ∨ how = .both then { s with readShutdown := true } else s
    if how = .both ∨ (s.readShutdown && s.writeShutdown) then
      let (flags, pendingQueue, r) :=
        sendResetRequest s.streamIdentifier state flags pendingQueue
      (s, flags, pendingQueue, r)
    else
      (s, flags, pendingQueue, .ok ())

/-- `on_buffer_released`, and whether the low-water callback runs. -/
def onBufferReleased (s : Stream) (nBytesReleased : ℕ) : Stream × Bool :=
  if nBytesReleased = 0 then
    (s, false)
  else
    let fromAmount := s.bufferedAmount
    let newAmount := if fromAmount < nBytesReleased then 0 else fromAmount - nBytesReleased
    ({ s with bufferedAmount := newAmount },
      fromAmount > s.bufferedAmountLow ∧ newAmount ≤ s.bufferedAmountLow)

/-- `get_num_bytes_in_reassembly_queue`. -/
def getNumBytesInReassemblyQueue (s : Stream) : ℕ := s.reassemblyQueue.getNumBytes

end Stream

end Sctp
