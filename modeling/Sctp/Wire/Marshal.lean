import Sctp.Wire.Packet
import Sctp.Lib.ByteWriter

/-!
# Encoders

`marshal` of the parameters, the chunks and the packet. An encoder is given as what it
writes into an empty buffer; putting bytes into a buffer cannot fail.
-/

namespace Sctp

open Bytes

/-! ## Parameters -/

/-- `a as u16`. -/
def HmacAlgorithm.toU16 : HmacAlgorithm → U16
  | .hmacResv1 => 0
  | .hmacSha128 => 1
  | .hmacResv2 => 2
  | .hmacSha256 => 3
  | .unknown => 4

/-- `result as u32`. -/
def ReconfigResult.toU32 : ReconfigResult → U32
  | .successNop => 0
  | .successPerformed => 1
  | .denied => 2
  | .errorWrongSsn => 3
  | .errorRequestAlreadyInProgress => 4
  | .errorBadSequenceNumber => 5
  | .inProgress => 6
  | .unknown => 7

/-- `ParamHeader::marshal_to`. -/
def ParamHeader.marshal (h : ParamHeader) : Bytes :=
  putU16 h.typ.toU16 ++ putU16 (h.valueLength + BitVec.ofNat 16 paramHeaderLength)

/-- The header of a parameter. -/
def Param.header (p : Param) : ParamHeader :=
  { typ := p.typ, valueLength := BitVec.ofNat 16 p.valueLength }

/-- What `marshal_to` writes behind the header. -/
def Param.marshalValue : Param → Bytes
  | heartbeatInfo info => info
  | stateCookie cookie => cookie
  | random data => data
  | chunkList types => types
  | supportedExtensions types => types
  | requestedHmacAlgorithm algorithms => algorithms.flatMap fun a => putU16 a.toU16
  | outgoingResetRequest p =>
    putU32 p.reconfigRequestSequenceNumber ++ (putU32 p.reconfigResponseSequenceNumber ++
      (putU32 p.senderLastTsn ++ p.streamIdentifiers.flatMap putU16))
  | reconfigResponse p => putU32 p.reconfigResponseSequenceNumber ++ putU32 p.result.toU32
  | forwardTsnSupported => []
  | unknown _ value => value
  | unrecognized param => param.header.marshal ++ param.marshalValue

/-- `marshal` of a parameter, without padding. -/
def Param.marshal (p : Param) : Bytes := p.header.marshal ++ p.marshalValue

/-- The loop of `ChunkInit::marshal_to`: every parameter but the last is padded. -/
def marshalParams : List Param → Bytes
  | [] => []
  | [p] => p.marshal
  | p :: ps => p.marshal ++ zeros (getPaddingSize p.marshal.length) ++ marshalParams ps

/-! ## Chunks -/

/-- `payload_type as u32`. -/
def PayloadProtocolIdentifier.toU32 : PayloadProtocolIdentifier → U32
  | .dcep => 50
  | .string => 51
  | .binary => 53
  | .stringEmpty => 56
  | .binaryEmpty => 57
  | .unknown => 58

/-- `ChunkHeader::marshal_to`. -/
def ChunkHeader.marshal (h : ChunkHeader) : Bytes :=
  [h.typ, h.flags] ++ putU16 (h.valueLength + BitVec.ofNat 16 chunkHeaderSize)

/-- `ErrorCause::marshal`. -/
def ErrorCause.marshal (e : ErrorCause) : Bytes :=
  putU16 e.code ++ putU16 (BitVec.ofNat 16 (e.raw.length + errorCauseHeaderLength)) ++ e.raw

/-- `ChunkForwardTsnStream::marshal`. -/
def ChunkForwardTsnStream.marshal (s : ChunkForwardTsnStream) : Bytes :=
  putU16 s.identifier ++ putU16 s.sequence

/-- The flag bits of a DATA chunk. -/
def ChunkPayloadData.flags (c : ChunkPayloadData) : U8 :=
  let flags : U8 := if c.endingFragment then 1 else 0
  let flags := if c.beginningFragment then flags ||| 1 <<< 1 else flags
  let flags := if c.unordered then flags ||| 1 <<< 2 else flags
  if c.immediateSack then flags ||| 1 <<< 3 else flags

/-- The value of a HEARTBEAT ACK, which is one heartbeat info parameter. -/
def marshalHeartbeatAckValue : List Param → Except Error Bytes
  | [p] =>
    if p.typ ≠ .heartbeatInfo then
      .error .errHeartbeatAckNotHeartbeatInfo
    else
      .ok (marshalParams [p])
  | _ => .error .errHeartbeatAckParams

/-- The value of a RECONFIG chunk: the first parameter is padded if there is a second one. -/
def ChunkReconfig.marshalValue (c : ChunkReconfig) : Except Error Bytes :=
  match c.paramA, c.paramB with
  | none, _ => .error .errChunkReconfigInvalidParamA
  | some paramA, none => .ok paramA.marshal
  | some paramA, some paramB =>
    .ok (paramA.marshal ++ (zeros (getPaddingSize (paramHeaderLength + paramA.valueLength)) ++
      paramB.marshal))

namespace Chunk

/-- The type in `header()`. -/
def typ : Chunk → ChunkType
  | init c => if c.isAck then ctInitAck else ctInit
  | abort _ => ctAbort
  | cookieEcho _ => ctCookieEcho
  | cookieAck => ctCookieAck
  | heartbeat _ => ctHeartbeat
  | heartbeatAck _ => ctHeartbeatAck
  | payloadData _ => ctPayloadData
  | selectiveAck _ => ctSack
  | reconfig _ => ctReconfig
  | forwardTsn _ => ctForwardTsn
  | error _ => ctError
  | shutdown _ => ctShutdown
  | shutdownAck => ctShutdownAck
  | shutdownComplete => ctShutdownComplete
  | unknown hdr _ => hdr.typ

/-- `header` of a chunk. -/
def header (c : Chunk) : ChunkHeader :=
  match c with
  | payloadData d => { typ := c.typ, flags := d.flags, valueLength := BitVec.ofNat 16 c.valueLength }
  | unknown hdr _ => hdr
  | _ => { typ := c.typ, flags := 0, valueLength := BitVec.ofNat 16 c.valueLength }

/-- What `marshal_to` writes behind the header. -/
def marshalValue : Chunk → Except Error Bytes
  | init c =>
    .ok (putU32 c.initiateTag ++ (putU32 c.advertisedReceiverWindowCredit ++
      (putU16 c.numOutboundStreams ++ (putU16 c.numInboundStreams ++
        (putU32 c.initialTsn ++ marshalParams c.params)))))
  | abort errorCauses => .ok (errorCauses.flatMap ErrorCause.marshal)
  | cookieEcho cookie => .ok cookie
  | cookieAck => .ok []
  | heartbeat params => .ok (params.flatMap Param.marshal)
  | heartbeatAck params => marshalHeartbeatAckValue params
  | payloadData c =>
    .ok (putU32 c.tsn ++ (putU16 c.streamIdentifier ++ (putU16 c.streamSequenceNumber ++
      (putU32 c.payloadType.toU32 ++ c.userData))))
  | selectiveAck c =>
    .ok (putU32 c.cumulativeTsnAck ++ (putU32 c.advertisedReceiverWindowCredit ++
      (putU16 (BitVec.ofNat 16 c.gapAckBlocks.length) ++
        (putU16 (BitVec.ofNat 16 c.duplicateTsn.length) ++
          ((c.gapAckBlocks.flatMap fun g => putU16 g.start ++ putU16 g.end_) ++
            c.duplicateTsn.flatMap putU32)))))
  | reconfig c => c.marshalValue
  | forwardTsn c =>
    .ok (putU32 c.newCumulativeTsn ++ c.streams.flatMap ChunkForwardTsnStream.marshal)
  | error errorCauses => .ok (errorCauses.flatMap ErrorCause.marshal)
  | shutdown cumulativeTsnAck => .ok (putU32 cumulativeTsnAck)
  | shutdownAck => .ok []
  | shutdownComplete => .ok []
  | unknown _ value => .ok value

/-- `marshal` of a chunk, without padding. -/
def marshal (c : Chunk) : Except Error Bytes := do
  let value ← c.marshalValue
  .ok (c.header.marshal ++ value)

end Chunk

/-! ## Packets -/

namespace Packet

/-- The loop of `Packet::marshal_to`. -/
def marshalChunks (raw : Bytes) : List Chunk → Except Error Bytes
  | [] => .ok raw
  | c :: cs => do
    let chunkRaw ← c.marshal
    let raw := raw ++ chunkRaw
    marshalChunks (raw ++ zeros (getPaddingSize raw.length)) cs

/-- `Packet::marshal_to`: the checksum is that of the packet with zeros in its place. -/
def marshalTo (crc : Bytes → U32) (writer : Bytes) (p : Packet) : Except Error Bytes := do
  let writer := writer ++ (putU16 p.sourcePort ++ (putU16 p.destinationPort ++
    putU32 p.verificationTag))
  let raw ← marshalChunks [] p.chunks
  let checksum := crc (writer ++ [0, 0, 0, 0] ++ raw)
  .ok (writer ++ putU32LE checksum ++ raw)

/-- `Packet::marshal`. -/
def marshal (crc : Bytes → U32) (p : Packet) : Except Error Bytes := p.marshalTo crc []

end Packet

end Sctp
