import Sctp.Wire.Param

/-!
# Chunks

The chunk types of `chunk/`, `error_cause.rs`, and their decoders. A chunk decoder is given
the rest of the packet from the chunk's first byte on; the length field of the chunk header
says how much of it belongs to the chunk.
-/

namespace Sctp

open Outcome

/-- The chunk types, as they stand in the first byte of a chunk. -/
def ctPayloadData : ChunkType := 0
def ctInit : ChunkType := 1
def ctInitAck : ChunkType := 2
def ctSack : ChunkType := 3
def ctHeartbeat : ChunkType := 4
def ctHeartbeatAck : ChunkType := 5
def ctAbort : ChunkType := 6
def ctShutdown : ChunkType := 7
def ctShutdownAck : ChunkType := 8
def ctError : ChunkType := 9
def ctCookieEcho : ChunkType := 10
def ctCookieAck : ChunkType := 11
def ctShutdownComplete : ChunkType := 14
def ctReconfig : ChunkType := 130
def ctForwardTsn : ChunkType := 192

/-- The payload protocol identifiers that the crate tells apart. -/
inductive PayloadProtocolIdentifier where
  | dcep
  | string
  | binary
  | stringEmpty
  | binaryEmpty
  | unknown
deriving DecidableEq, Repr

/-- `From<u32> for PayloadProtocolIdentifier`. -/
def PayloadProtocolIdentifier.ofU32 (v : U32) : PayloadProtocolIdentifier :=
  match v.toNat with
  | 50 => .dcep
  | 51 => .string
  | 53 => .binary
  | 56 => .stringEmpty
  | 57 => .binaryEmpty
  | _ => .unknown

/-- An `Arc<AtomicBool>`: the address of the shared cell. -/
abbrev SharedFlag := ℕ

/-- `ChunkPayloadData`. The fields from `acked` on are the sender's own bookkeeping;
`abandoned` and `allInflight` are shared by all the fragments of a message. -/
structure ChunkPayloadData where
  unordered : Bool := false
  beginningFragment : Bool := false
  endingFragment : Bool := false
  immediateSack : Bool := false
  tsn : U32 := 0
  streamIdentifier : U16 := 0
  streamSequenceNumber : U16 := 0
  payloadType : PayloadProtocolIdentifier := .unknown
  userData : Bytes := []
  acked : Bool := false
  missIndicator : U32 := 0
  since : ℕ := 0
  nsent : U32 := 0
  abandoned : SharedFlag := 0
  allInflight : SharedFlag := 0
  retransmit : Bool := false
deriving DecidableEq, Repr

/-- An INIT or an INIT ACK, which differ in their type only. -/
structure ChunkInit where
  isAck : Bool := false
  initiateTag : U32 := 0
  advertisedReceiverWindowCredit : U32 := 0
  numOutboundStreams : U16 := 0
  numInboundStreams : U16 := 0
  initialTsn : U32 := 0
  params : List Param := []
deriving DecidableEq, Repr

/-- A gap ack block: the first and last TSN of a block, as offsets from the cumulative TSN. -/
structure GapAckBlock where
  start : U16
  end_ : U16
deriving DecidableEq, Repr

/-- A SACK chunk. -/
structure ChunkSelectiveAck where
  cumulativeTsnAck : U32
  advertisedReceiverWindowCredit : U32
  gapAckBlocks : List GapAckBlock
  duplicateTsn : List U32
deriving DecidableEq, Repr

/-- An entry of a FORWARD TSN: a stream and the SSN up to which it is skipped. -/
structure ChunkForwardTsnStream where
  identifier : U16
  sequence : U16
deriving DecidableEq, Repr

/-- A FORWARD TSN chunk. -/
structure ChunkForwardTsn where
  newCumulativeTsn : U32
  streams : List ChunkForwardTsnStream
deriving DecidableEq, Repr

/-- A RECONFIG chunk, with one or two parameters. -/
structure ChunkReconfig where
  paramA : Option Param := none
  paramB : Option Param := none
deriving DecidableEq, Repr

/-- An error cause of an ABORT or ERROR chunk. -/
structure ErrorCause where
  code : U16 := 0
  raw : Bytes := []
deriving DecidableEq, Repr

/-- The header of a chunk, with the length of its value in place of the length field. -/
structure ChunkHeader where
  typ : ChunkType
  flags : U8
  valueLength : U16
deriving DecidableEq, Repr

/-- The implementations of the trait `Chunk` that a packet can carry. -/
inductive Chunk where
  | init (c : ChunkInit)
  | abort (errorCauses : List ErrorCause)
  | cookieEcho (cookie : Bytes)
  | cookieAck
  | heartbeat (params : List Param)
  | heartbeatAck (params : List Param)
  | payloadData (c : ChunkPayloadData)
  | selectiveAck (c : ChunkSelectiveAck)
  | reconfig (c : ChunkReconfig)
  | forwardTsn (c : ChunkForwardTsn)
  | error (errorCauses : List ErrorCause)
  | shutdown (cumulativeTsnAck : U32)
  | shutdownAck
  | shutdownComplete
  | unknown (hdr : ChunkHeader) (value : Bytes)
deriving DecidableEq, Repr

/-! ## Lengths -/

/-- The sizes that the decoders and encoders of the chunks use. -/
def chunkHeaderSize : ℕ := 4
def initChunkMinLength : ℕ := 16
def initOptionalVarHeaderLength : ℕ := 4
def payloadDataHeaderSize : ℕ := 12
def selectiveAckHeaderSize : ℕ := 12
def newCumulativeTsnLength : ℕ := 4
def forwardTsnStreamLength : ℕ := 4
def cumulativeTsnAckLength : ℕ := 4
def errorCauseHeaderLength : ℕ := 4

/-- What an error cause takes on the wire. -/
def ErrorCause.length (e : ErrorCause) : ℕ := e.raw.length + errorCauseHeaderLength

/-- The length of a parameter list in which every parameter but the last is padded. -/
def paramsLength : List Param → ℕ
  | [] => 0
  | [p] => paramHeaderLength + p.valueLength
  | p :: ps =>
    paramHeaderLength + p.valueLength + getPaddingSize (paramHeaderLength + p.valueLength) +
      paramsLength ps

/-- The length of the value of a RECONFIG chunk; the padding between the parameters is that of the
first one, and is counted only if there is a second one. -/
def ChunkReconfig.valueLength (c : ChunkReconfig) : ℕ :=
  let paramAValueLength := (c.paramA.map Param.valueLength).getD 0
  let l := paramHeaderLength + paramAValueLength
  match c.paramB with
  | some paramB =>
    l + (paramHeaderLength + paramB.valueLength +
      getPaddingSize (paramHeaderLength + paramAValueLength))
  | none => l

/-- `value_length`, computed from the decoded value. -/
def Chunk.valueLength : Chunk → ℕ
  | .init c => 4 + 4 + 2 + 2 + 4 + paramsLength c.params
  | .abort errorCauses => (errorCauses.map ErrorCause.length).sum
  | .cookieEcho cookie => cookie.length
  | .cookieAck => 0
  | .heartbeat params => (params.map fun p => paramHeaderLength + p.valueLength).sum
  | .heartbeatAck params => paramsLength params
  | .payloadData c => payloadDataHeaderSize + c.userData.length
  | .selectiveAck c =>
    selectiveAckHeaderSize + c.gapAckBlocks.length * 4 + c.duplicateTsn.length * 4
  | .reconfig c => c.valueLength
  | .forwardTsn c => newCumulativeTsnLength + forwardTsnStreamLength * c.streams.length
  | .error errorCauses => (errorCauses.map ErrorCause.length).sum
  | .shutdown _ => cumulativeTsnAckLength
  | .shutdownAck => 0
  | .shutdownComplete => 0
  | .unknown _ value => value.length

/-! ## Decoders -/

/-- The padding check of `ChunkHeader::unmarshal`, from the last padding byte down. -/
def ChunkHeader.checkPadding (raw : Bytes) (valueLength : ℕ) : ℕ → Outcome Error Unit
  | 0 => .ok ()
  | i + 1 => do
    let b ← raw.index (chunkHeaderSize + (valueLength + (i + 1) - 1))
    if b ≠ 0 then
      .err .errChunkHeaderPaddingNonZero
    else
      ChunkHeader.checkPadding raw valueLength i

/-- `ChunkHeader::unmarshal`: the length field covers the header and has to fit the buffer, and the
bytes after the value, if fewer than four, have to be zero. -/
def ChunkHeader.unmarshal (raw : Bytes) : Outcome Error ChunkHeader := do
  if raw.length < chunkHeaderSize then
    .err .errChunkHeaderTooSmall
  else
    let (typ, reader) ← raw.getU8
    let (flags, reader) ← Bytes.getU8 reader
    let (length, _) ← Bytes.getU16 reader
    if length.toNat < chunkHeaderSize then
      .err .errChunkHeaderInvalidLength
    else if length.toNat > raw.length then
      .err .errChunkHeaderInvalidLength
    else
      let valueLength := length.toNat - chunkHeaderSize
      let lengthAfterValue := raw.length - length.toNat
      if lengthAfterValue < 4 then
        let _ ← ChunkHeader.checkPadding raw valueLength lengthAfterValue
        .ok { typ, flags, valueLength := length - BitVec.ofNat 16 chunkHeaderSize }
      else
        .ok { typ, flags, valueLength := length - BitVec.ofNat 16 chunkHeaderSize }

/-- The end of the chunk inside `raw`. -/
def ChunkHeader.stop (header : ChunkHeader) : ℕ := chunkHeaderSize + header.valueLength.toNat

/-- The value bytes the header declares. -/
def ChunkHeader.value (header : ChunkHeader) (raw : Bytes) : Outcome Error Bytes :=
  raw.slice chunkHeaderSize header.stop

/-- `ErrorCause::unmarshal`: the cause takes as many bytes as its length field says. -/
def ErrorCause.unmarshal (buf : Bytes) : Outcome Error ErrorCause := do
  if buf.length < errorCauseHeaderLength then
    .err .errErrorCauseTooSmall
  else
    let (code, reader) ← buf.getU16
    let (len, _) ← Bytes.getU16 reader
    if len.toNat < errorCauseHeaderLength then
      .err .errErrorCauseTooSmall
    else if buf.length < len.toNat then
      .err .errErrorCauseTooSmall
    else
      let valueLength := len.toNat - errorCauseHeaderLength
      let raw ← buf.slice errorCauseHeaderLength (errorCauseHeaderLength + valueLength)
      .ok { code, raw }

namespace Chunk

/-- The parameter loop of `ChunkInit::unmarshal`. `remaining` counts the bytes to the end of
the packet, `stop` is the end of the chunk. -/
def unmarshalInitParams (raw : Bytes) (stop offset : ℕ) (remaining : ℤ) :
    Outcome Error (List Param) :=
  if remaining > (initOptionalVarHeaderLength : ℤ) then do
    let rawParam ← raw.slice offset stop
    let p ← buildParam rawParam
    let pLen := paramHeaderLength + p.valueLength
    let lenPlusPadding := pLen + getPaddingSize pLen
    let params ← unmarshalInitParams raw stop (offset + lenPlusPadding) (remaining - lenPlusPadding)
    .ok (p :: params)
  else
    .ok []
termination_by remaining.toNat
decreasing_by
  simp only [paramHeaderLength, initOptionalVarHeaderLength] at *
  omega

/-- `ChunkInit::unmarshal`, for INIT and INIT ACK. -/
def unmarshalInit (raw : Bytes) : Outcome Error Chunk := do
  let header ← ChunkHeader.unmarshal raw
  if ¬ (header.typ = ctInit ∨ header.typ = ctInitAck) then
    .err .errChunkTypeNotTypeInit
  else if header.valueLength.toNat < initChunkMinLength then
    .err .errChunkValueNotLongEnough
  else if header.flags ≠ 0 then
    .err .errChunkTypeInitFlagZero
  else
    let reader ← header.value raw
    let (initiateTag, reader) ← reader.getU32
    let (advertisedReceiverWindowCredit, reader) ← Bytes.getU32 reader
    let (numOutboundStreams, reader) ← Bytes.getU16 reader
    let (numInboundStreams, reader) ← Bytes.getU16 reader
    let (initialTsn, _) ← Bytes.getU32 reader
    let offset := chunkHeaderSize + initChunkMinLength
    let params ← unmarshalInitParams raw header.stop offset (raw.length - offset)
    .ok (.init
      { isAck := header.typ = ctInitAck
        initiateTag, advertisedReceiverWindowCredit, numOutboundStreams, numInboundStreams,
        initialTsn, params })

/-- The loop over the error causes of an ABORT or ERROR chunk. -/
def unmarshalErrorCauses (raw : Bytes) (stop offset : ℕ) : Outcome Error (List ErrorCause) :=
  if offset + 4 ≤ raw.length then do
    let rawCause ← raw.slice offset stop
    let e ← ErrorCause.unmarshal rawCause
    let errorCauses ← unmarshalErrorCauses raw stop (offset + e.length)
    .ok (e :: errorCauses)
  else
    .ok []
termination_by raw.length - offset
decreasing_by
  simp only [ErrorCause.length, errorCauseHeaderLength]
  omega

/-- `ChunkAbort::unmarshal`. -/
def unmarshalAbort (raw : Bytes) : Outcome Error Chunk := do
  let header ← ChunkHeader.unmarshal raw
  if header.typ ≠ ctAbort then
    .err .errChunkTypeNotAbort
  else
    let errorCauses ← unmarshalErrorCauses raw header.stop chunkHeaderSize
    .ok (.abort errorCauses)

/-- `ChunkError::unmarshal`. -/
def unmarshalError (raw : Bytes) : Outcome Error Chunk := do
  let header ← ChunkHeader.unmarshal raw
  if header.typ ≠ ctError then
    .err .errChunkTypeNotCtError
  else
    let errorCauses ← unmarshalErrorCauses raw header.stop chunkHeaderSize
    .ok (.error errorCauses)

/-- `ChunkCookieEcho::unmarshal`: the whole value is the cookie. -/
def unmarshalCookieEcho (raw : Bytes) : Outcome Error Chunk := do
  let header ← ChunkHeader.unmarshal raw
  if header.typ ≠ ctCookieEcho then
    .err .errChunkTypeNotCookieEcho
  else
    let cookie ← header.value raw
    .ok (.cookieEcho cookie)

/-- `ChunkCookieAck::unmarshal`: only the header is looked at. -/
def unmarshalCookieAck (raw : Bytes) : Outcome Error Chunk := do
  let header ← ChunkHeader.unmarshal raw
  if header.typ ≠ ctCookieAck then
    .err .errChunkTypeNotCookieAck
  else
    .ok .cookieAck

/-- `ChunkHeartbeat::unmarshal`: the value is one heartbeat info parameter. -/
def unmarshalHeartbeat (raw : Bytes) : Outcome Error Chunk := do
  let header ← ChunkHeader.unmarshal raw
  if header.typ ≠ ctHeartbeat then
    .err .errChunkTypeNotHeartbeat
  else if raw.length ≤ chunkHeaderSize then
    .err .errHeartbeatNotLongEnoughInfo
  else
    let rawParam ← header.value raw
    let p ← buildParam rawParam
    if p.typ ≠ .heartbeatInfo then
      .err .errHeartbeatParam
    else
      .ok (.heartbeat [p])

/-- `ChunkPayloadData::unmarshal`: the value is a header of 12 bytes and the user data. -/
def unmarshalPayloadData (raw : Bytes) : Outcome Error Chunk := do
  let header ← ChunkHeader.unmarshal raw
  if header.typ ≠ ctPayloadData then
    .err .errChunkTypeNotPayloadData
  else if header.valueLength.toNat < payloadDataHeaderSize then
    .err .errChunkPayloadSmall
  else
    let reader ← header.value raw
    let (tsn, reader) ← reader.getU32
    let (streamIdentifier, reader) ← Bytes.getU16 reader
    let (streamSequenceNumber, reader) ← Bytes.getU16 reader
    let (ppi, _) ← Bytes.getU32 reader
    let userData ← raw.slice (chunkHeaderSize + payloadDataHeaderSize) header.stop
    .ok (.payloadData
      { immediateSack := header.flags &&& 8 ≠ 0
        unordered := header.flags &&& 4 ≠ 0
        beginningFragment := header.flags &&& 2 ≠ 0
        endingFragment := header.flags &&& 1 ≠ 0
        tsn, streamIdentifier, streamSequenceNumber
        payloadType := PayloadProtocolIdentifier.ofU32 ppi
        userData })

/-- The loop that reads the gap ack blocks of a SACK. -/
def readGapAckBlocks : ℕ → Bytes → Outcome Error (List GapAckBlock × Bytes)
  | 0, reader => .ok ([], reader)
  | n + 1, reader => do
    let (start, reader) ← reader.getU16
    let (end_, reader) ← Bytes.getU16 reader
    let (blocks, reader) ← readGapAckBlocks n reader
    .ok ({ start, end_ } :: blocks, reader)

/-- The loop that reads the duplicate TSNs of a SACK. -/
def readDuplicateTsn : ℕ → Bytes → Outcome Error (List U32)
  | 0, _ => .ok []
  | n + 1, reader => do
    let (t, reader) ← reader.getU32
    let ts ← readDuplicateTsn n reader
    .ok (t :: ts)

/-- `ChunkSelectiveAck::unmarshal`: the value is at least as long as the two counts ask for. -/
def unmarshalSelectiveAck (raw : Bytes) : Outcome Error Chunk := do
  let header ← ChunkHeader.unmarshal raw
  let valueLength := header.valueLength.toNat
  if header.typ ≠ ctSack then
    .err .errChunkTypeNotSack
  else if valueLength < selectiveAckHeaderSize then
    .err .errSackSizeNotLargeEnoughInfo
  else
    let reader ← header.value raw
    let (cumulativeTsnAck, reader) ← reader.getU32
    let (advertisedReceiverWindowCredit, reader) ← Bytes.getU32 reader
    let (gapAckBlocksLen, reader) ← Bytes.getU16 reader
    let (duplicateTsnLen, reader) ← Bytes.getU16 reader
    if valueLength <
        selectiveAckHeaderSize + (4 * gapAckBlocksLen.toNat + 4 * duplicateTsnLen.toNat) then
      .err .errSackSizeNotLargeEnoughInfo
    else
      let (gapAckBlocks, reader) ← readGapAckBlocks gapAckBlocksLen.toNat reader
      let duplicateTsn ← readDuplicateTsn duplicateTsnLen.toNat reader
      .ok (.selectiveAck
        { cumulativeTsnAck, advertisedReceiverWindowCredit, gapAckBlocks, duplicateTsn })

/-- `ChunkReconfig::unmarshal`: a second parameter is read if there are bytes left behind the first
one. -/
def unmarshalReconfig (raw : Bytes) : Outcome Error Chunk := do
  let header ← ChunkHeader.unmarshal raw
  if header.typ ≠ ctReconfig then
    .err .errChunkTypeNotReconfig
  else
    let rawParam ← header.value raw
    let paramA ← buildParam rawParam
    let padding := getPaddingSize (paramHeaderLength + paramA.valueLength)
    let offset := chunkHeaderSize + paramHeaderLength + paramA.valueLength + padding
    if header.stop > offset then
      let rawParam ← raw.slice offset header.stop
      let paramB ← buildParam rawParam
      .ok (.reconfig { paramA := some paramA, paramB := some paramB })
    else
      .ok (.reconfig { paramA := some paramA, paramB := none })

/-- `ChunkForwardTsnStream::unmarshal`. -/
def unmarshalForwardTsnStream (buf : Bytes) : Outcome Error ChunkForwardTsnStream := do
  if buf.length < forwardTsnStreamLength then
    .err .errChunkTooShort
  else
    let (identifier, reader) ← buf.getU16
    let (sequence, _) ← Bytes.getU16 reader
    .ok { identifier, sequence }

/-- The stream loop of `ChunkForwardTsn::unmarshal`. `remaining` counts the bytes to the end
of the packet; its subtraction is checked as the one on `usize` is. -/
def unmarshalForwardTsnStreams (buf : Bytes) (stop offset remaining : ℕ) :
    Outcome Error (List ChunkForwardTsnStream) :=
  if remaining > 0 then do
    let rawStream ← buf.slice offset stop
    let s ← unmarshalForwardTsnStream rawStream
    if remaining < forwardTsnStreamLength then
      .panic
    else
      let streams ← unmarshalForwardTsnStreams buf stop (offset + forwardTsnStreamLength)
        (remaining - forwardTsnStreamLength)
      .ok (s :: streams)
  else
    .ok []
termination_by remaining
decreasing_by
  simp only [forwardTsnStreamLength]
  omega

/-- `ChunkForwardTsn::unmarshal`: the streams are read up to the end of the buffer, not of the
chunk. -/
def unmarshalForwardTsn (buf : Bytes) : Outcome Error Chunk := do
  let header ← ChunkHeader.unmarshal buf
  if header.typ ≠ ctForwardTsn then
    .err .errChunkTypeNotForwardTsn
  else
    let offset := chunkHeaderSize + newCumulativeTsnLength
    if buf.length < offset then
      .err .errChunkTooShort
    else
      let reader ← header.value buf
      let (newCumulativeTsn, _) ← reader.getU32
      let streams ← unmarshalForwardTsnStreams buf header.stop offset (buf.length - offset)
      .ok (.forwardTsn { newCumulativeTsn, streams })

/-- `ChunkShutdown::unmarshal`: the buffer may hold nothing but this chunk. -/
def unmarshalShutdown (raw : Bytes) : Outcome Error Chunk := do
  let header ← ChunkHeader.unmarshal raw
  if header.typ ≠ ctShutdown then
    .err .errChunkTypeNotShutdown
  else if raw.length ≠ chunkHeaderSize + cumulativeTsnAckLength then
    .err .errInvalidChunkSize
  else
    let reader ← header.value raw
    let (cumulativeTsnAck, _) ← reader.getU32
    .ok (.shutdown cumulativeTsnAck)

/-- `ChunkShutdownAck::unmarshal`: only the header is looked at. -/
def unmarshalShutdownAck (raw : Bytes) : Outcome Error Chunk := do
  let header ← ChunkHeader.unmarshal raw
  if header.typ ≠ ctShutdownAck then
    .err .errChunkTypeNotShutdownAck
  else
    .ok .shutdownAck

/-- `ChunkShutdownComplete::unmarshal`: only the header is looked at. -/
def unmarshalShutdownComplete (raw : Bytes) : Outcome Error Chunk := do
  let header ← ChunkHeader.unmarshal raw
  if header.typ ≠ ctShutdownComplete then
    .err .errChunkTypeNotShutdownComplete
  else
    .ok .shutdownComplete

/-- `ChunkUnknown::unmarshal`: any value is taken. -/
def unmarshalUnknown (raw : Bytes) : Outcome Error Chunk := do
  let header ← ChunkHeader.unmarshal raw
  let value ← header.value raw
  .ok (.unknown header value)

/-- The decoder `Packet::unmarshal` chooses by the first byte. -/
def unmarshal (ct : ChunkType) (raw : Bytes) : Outcome Error Chunk :=
  if ct = ctInit then unmarshalInit raw
  else if ct = ctInitAck then unmarshalInit raw
  else if ct = ctAbort then unmarshalAbort raw
  else if ct = ctCookieEcho then unmarshalCookieEcho raw
  else if ct = ctCookieAck then unmarshalCookieAck raw
  else if ct = ctHeartbeat then unmarshalHeartbeat raw
  else if ct = ctPayloadData then unmarshalPayloadData raw
  else if ct = ctSack then unmarshalSelectiveAck raw
  else if ct = ctReconfig then unmarshalReconfig raw
  else if ct = ctForwardTsn then unmarshalForwardTsn raw
  else if ct = ctError then unmarshalError raw
  else if ct = ctShutdown then unmarshalShutdown raw
  else if ct = ctShutdownAck then unmarshalShutdownAck raw
  else if ct = ctShutdownComplete then unmarshalShutdownComplete raw
  else unmarshalUnknown raw

end Chunk

end Sctp
