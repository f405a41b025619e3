import Sctp.Util
import Sctp.Error

/-!
# Parameters of INIT, INIT ACK, HEARTBEAT and RECONFIG chunks

The parameter types of `param/` and their decoders. A decoder is given the rest of the
chunk and reads the part its own length field declares.
-/

namespace Sctp

open Outcome

/-- A chunk type is its number. -/
abbrev ChunkType := U8

instance : LawfulBEq ChunkType := inferInstance

/-- The parameter types that the crate knows, and the others. -/
inductive ParamType where
  | heartbeatInfo
  | ipv4Addr
  | ipv6Addr
  | stateCookie
  | unrecognizedParam
  | cookiePreservative
  | hostNameAddr
  | supportedAddrTypes
  | outSsnResetReq
  | incSsnResetReq
  | ssnTsnResetReq
  | reconfigResp
  | addOutStreamsReq
  | addIncStreamsReq
  | random
  | chunkList
  | reqHmacAlgo
  | padding
  | supportedExt
  | forwardTsnSupp
  | addIpAddr
  | delIpaddr
  | errClauseInd
  | setPriAddr
  | successInd
  | adaptLayerInd
  | unknown (paramType : U16)
deriving DecidableEq, Repr

/-- `From<u16> for ParamType`. -/
def ParamType.ofU16 (v : U16) : ParamType :=
  match v.toNat with
  | 1 => .heartbeatInfo
  | 5 => .ipv4Addr
  | 6 => .ipv6Addr
  | 7 => .stateCookie
  | 8 => .unrecognizedParam
  | 9 => .cookiePreservative
  | 11 => .hostNameAddr
  | 12 => .supportedAddrTypes
  | 13 => .outSsnResetReq
  | 14 => .incSsnResetReq
  | 15 => .ssnTsnResetReq
  | 16 => .reconfigResp
  | 17 => .addOutStreamsReq
  | 18 => .addIncStreamsReq
  | 32770 => .random
  | 32771 => .chunkList
  | 32772 => .reqHmacAlgo
  | 32773 => .padding
  | 32776 => .supportedExt
  | 49152 => .forwardTsnSupp
  | 49153 => .addIpAddr
  | 49154 => .delIpaddr
  | 49155 => .errClauseInd
  | 49156 => .setPriAddr
  | 49157 => .successInd
  | 49158 => .adaptLayerInd
  | _ => .unknown v

/-- `From<ParamType> for u16`. -/
def ParamType.toU16 : ParamType → U16
  | .heartbeatInfo => 1
  | .ipv4Addr => 5
  | .ipv6Addr => 6
  | .stateCookie => 7
  | .unrecognizedParam => 8
  | .cookiePreservative => 9
  | .hostNameAddr => 11
  | .supportedAddrTypes => 12
  | .outSsnResetReq => 13
  | .incSsnResetReq => 14
  | .ssnTsnResetReq => 15
  | .reconfigResp => 16
  | .addOutStreamsReq => 17
  | .addIncStreamsReq => 18
  | .random => 32770
  | .chunkList => 32771
  | .reqHmacAlgo => 32772
  | .padding => 32773
  | .supportedExt => 32776
  | .forwardTsnSupp => 49152
  | .addIpAddr => 49153
  | .delIpaddr => 49154
  | .errClauseInd => 49155
  | .setPriAddr => 49156
  | .successInd => 49157
  | .adaptLayerInd => 49158
  | .unknown paramType => paramType

/-- The HMAC algorithms of a requested HMAC algorithm parameter. -/
inductive HmacAlgorithm where
  | hmacResv1
  | hmacSha128
  | hmacResv2
  | hmacSha256
  | unknown
deriving DecidableEq, Repr

/-- `From<u16> for HmacAlgorithm`. -/
def HmacAlgorithm.ofU16 (v : U16) : HmacAlgorithm :=
  match v.toNat with
  | 0 => .hmacResv1
  | 1 => .hmacSha128
  | 2 => .hmacResv2
  | 3 => .hmacSha256
  | _ => .unknown

/-- The results of a re-configuration response. -/
inductive ReconfigResult where
  | successNop
  | successPerformed
  | denied
  | errorWrongSsn
  | errorRequestAlreadyInProgress
  | errorBadSequenceNumber
  | inProgress
  | unknown
deriving DecidableEq, Repr

/-- `From<u32> for ReconfigResult`. -/
def ReconfigResult.ofU32 (v : U32) : ReconfigResult :=
  match v.toNat with
  | 0 => .successNop
  | 1 => .successPerformed
  | 2 => .denied
  | 3 => .errorWrongSsn
  | 4 => .errorRequestAlreadyInProgress
  | 5 => .errorBadSequenceNumber
  | 6 => .inProgress
  | _ => .unknown

/-- An outgoing SSN reset request. -/
structure ParamOutgoingResetRequest where
  reconfigRequestSequenceNumber : U32
  reconfigResponseSequenceNumber : U32 := 0
  senderLastTsn : U32
  streamIdentifiers : List U16
deriving DecidableEq, Repr

/-- A re-configuration response. -/
structure ParamReconfigResponse where
  reconfigResponseSequenceNumber : U32
  result : ReconfigResult
deriving DecidableEq, Repr

/-- The implementations of the trait `Param`. -/
inductive Param where
  | heartbeatInfo (heartbeatInformation : Bytes)
  | stateCookie (cookie : Bytes)
  | random (randomData : Bytes)
  | chunkList (chunkTypes : List ChunkType)
  | supportedExtensions (chunkTypes : List ChunkType)
  | requestedHmacAlgorithm (availableAlgorithms : List HmacAlgorithm)
  | outgoingResetRequest (p : ParamOutgoingResetRequest)
  | reconfigResponse (p : ParamReconfigResponse)
  | forwardTsnSupported
  | unknown (typ : U16) (value : Bytes)
  | unrecognized (param : Param)
deriving DecidableEq, Repr

/-- The size of a parameter header. -/
def paramHeaderLength : ℕ := 4

/-- `PARAM_OUTGOING_RESET_REQUEST_STREAM_IDENTIFIERS_OFFSET`. -/
def paramOutgoingResetRequestStreamIdentifiersOffset : ℕ := 12

namespace Param

/-- `value_length`, computed from the decoded value. -/
def valueLength : Param → ℕ
  | heartbeatInfo info => info.length
  | stateCookie cookie => cookie.length
  | random data => data.length
  | chunkList types => types.length
  | supportedExtensions types => types.length
  | requestedHmacAlgorithm algorithms => 2 * algorithms.length
  | outgoingResetRequest p =>
    paramOutgoingResetRequestStreamIdentifiersOffset + p.streamIdentifiers.length * 2
  | reconfigResponse _ => 8
  | forwardTsnSupported => 0
  | unknown _ value => value.length
  | unrecognized param => param.valueLength + paramHeaderLength

/-- The type in `header()`. -/
def typ : Param → ParamType
  | heartbeatInfo _ => .heartbeatInfo
  | stateCookie _ => .stateCookie
  | random _ => .random
  | chunkList _ => .chunkList
  | supportedExtensions _ => .supportedExt
  | requestedHmacAlgorithm _ => .reqHmacAlgo
  | outgoingResetRequest _ => .outSsnResetReq
  | reconfigResponse _ => .reconfigResp
  | forwardTsnSupported => .forwardTsnSupp
  | unknown typ _ => .unknown typ
  | unrecognized _ => .unrecognizedParam

end Param

/-! ## Decoders -/

/-- The header of a parameter, with the length of its value. -/
structure ParamHeader where
  typ : ParamType
  valueLength : U16
deriving DecidableEq, Repr

/-- `ParamHeader::unmarshal`: the length field covers the header and has to fit the buffer. -/
def ParamHeader.unmarshal (raw : Bytes) : Outcome Error ParamHeader := do
  if raw.length < paramHeaderLength then
    .err .errParamHeaderTooShort
  else
    let (typ, reader) ← raw.getU16
    let (len, _) ← Bytes.getU16 reader
    if len.toNat < paramHeaderLength ∨ raw.length < len.toNat then
      .err .errParamHeaderTooShort
    else
      .ok
        { typ := ParamType.ofU16 typ
          valueLength := BitVec.ofNat 16 (len.toNat - paramHeaderLength) }

/-- The value bytes the header declares. -/
def ParamHeader.value (header : ParamHeader) (raw : Bytes) : Outcome Error Bytes :=
  raw.slice paramHeaderLength (paramHeaderLength + header.valueLength.toNat)

namespace Param

/-- `ParamForwardTsnSupported::unmarshal`: the value is not looked at. -/
def unmarshalForwardTsnSupported (raw : Bytes) : Outcome Error Param := do
  let _ ← ParamHeader.unmarshal raw
  .ok forwardTsnSupported

/-- `while reader.has_remaining() { get_u8 }` reads the whole buffer. -/
def unmarshalSupportedExtensions (raw : Bytes) : Outcome Error Param := do
  let header ← ParamHeader.unmarshal raw
  let reader ← header.value raw
  .ok (supportedExtensions reader)

/-- `ParamRandom::unmarshal`. -/
def unmarshalRandom (raw : Bytes) : Outcome Error Param := do
  let header ← ParamHeader.unmarshal raw
  let randomData ← header.value raw
  .ok (random randomData)

/-- The loop of `ParamRequestedHmacAlgorithm::unmarshal` over `offset`, which runs up to
the value length in steps of two. -/
def readHmacAlgorithms (valueLength offset : ℕ) (reader : Bytes)
    (availableAlgorithms : List HmacAlgorithm) : Outcome Error (List HmacAlgorithm) :=
  if offset + 1 < valueLength then do
    let (v, reader) ← reader.getU16
    let a := HmacAlgorithm.ofU16 v
    if a = .hmacSha128 ∨ a = .hmacSha256 then
      readHmacAlgorithms valueLength (offset + 2) reader (availableAlgorithms ++ [a])
    else
      .err .errInvalidAlgorithmType
  else
    .ok availableAlgorithms
termination_by valueLength - offset

/-- `ParamRequestedHmacAlgorithm::unmarshal`. -/
def unmarshalRequestedHmacAlgorithm (raw : Bytes) : Outcome Error Param := do
  let header ← ParamHeader.unmarshal raw
  let reader ← header.value raw
  let availableAlgorithms ← readHmacAlgorithms header.valueLength.toNat 0 reader []
  .ok (requestedHmacAlgorithm availableAlgorithms)

/-- `ParamChunkList::unmarshal`. -/
def unmarshalChunkList (raw : Bytes) : Outcome Error Param := do
  let header ← ParamHeader.unmarshal raw
  if header.typ ≠ .chunkList then
    .err .errParamTypeUnexpected
  else
    let reader ← header.value raw
    .ok (chunkList reader)

/-- `ParamStateCookie::unmarshal`. -/
def unmarshalStateCookie (raw : Bytes) : Outcome Error Param := do
  let header ← ParamHeader.unmarshal raw
  let cookie ← header.value raw
  .ok (stateCookie cookie)

/-- `ParamHeartbeatInfo::unmarshal`. -/
def unmarshalHeartbeatInfo (raw : Bytes) : Outcome Error Param := do
  let header ← ParamHeader.unmarshal raw
  let heartbeatInformation ← header.value raw
  .ok (heartbeatInfo heartbeatInformation)

/-- `n` stream identifiers in a row. -/
def readU16s : ℕ → Bytes → Outcome Error (List U16)
  | 0, _ => .ok []
  | n + 1, reader => do
    let (v, reader) ← reader.getU16
    let vs ← readU16s n reader
    .ok (v :: vs)

/-- `ParamOutgoingResetRequest::unmarshal`: the identifiers fill the rest of the value. -/
def unmarshalOutgoingResetRequest (raw : Bytes) : Outcome Error Param := do
  let header ← ParamHeader.unmarshal raw
  let valueLength := header.valueLength.toNat
  if valueLength < paramOutgoingResetRequestStreamIdentifiersOffset then
    .err .errSsnResetRequestParamTooShort
  else
    let reader ← header.value raw
    let (reconfigRequestSequenceNumber, reader) ← reader.getU32
    let (reconfigResponseSequenceNumber, reader) ← Bytes.getU32 reader
    let (senderLastTsn, reader) ← Bytes.getU32 reader
    let lim := (valueLength - paramOutgoingResetRequestStreamIdentifiersOffset) / 2
    let streamIdentifiers ← readU16s lim reader
    .ok (outgoingResetRequest
      { reconfigRequestSequenceNumber, reconfigResponseSequenceNumber, senderLastTsn,
        streamIdentifiers })

/-- `ParamReconfigResponse::unmarshal`. -/
def unmarshalReconfigResponse (raw : Bytes) : Outcome Error Param := do
  let header ← ParamHeader.unmarshal raw
  if header.valueLength.toNat < 8 then
    .err .errReconfigRespParamTooShort
  else
    let reader ← header.value raw
    let (reconfigResponseSequenceNumber, reader) ← reader.getU32
    let (result, _) ← Bytes.getU32 reader
    .ok (reconfigResponse
      { reconfigResponseSequenceNumber, result := ReconfigResult.ofU32 result })

/-- `ParamUnknown::unmarshal`. -/
def unmarshalUnknown (raw : Bytes) : Outcome Error Param := do
  let header ← ParamHeader.unmarshal raw
  let value ← header.value raw
  .ok (unknown header.typ.toU16 value)

end Param

/-- Decodes the parameter at the head of `rawParam`. -/
def buildParam (rawParam : Bytes) : Outcome Error Param := do
  if rawParam.length < paramHeaderLength then
    .err .errParamHeaderTooShort
  else
    let reader ← rawParam.slice 0 2
    let (rawType, _) ← reader.getU16
    match ParamType.ofU16 rawType with
    | .forwardTsnSupp => Param.unmarshalForwardTsnSupported rawParam
    | .supportedExt => Param.unmarshalSupportedExtensions rawParam
    | .random => Param.unmarshalRandom rawParam
    | .reqHmacAlgo => Param.unmarshalRequestedHmacAlgorithm rawParam
    | .chunkList => Param.unmarshalChunkList rawParam
    | .stateCookie => Param.unmarshalStateCookie rawParam
    | .heartbeatInfo => Param.unmarshalHeartbeatInfo rawParam
    | .outSsnResetReq => Param.unmarshalOutgoingResetRequest rawParam
    | .reconfigResp => Param.unmarshalReconfigResponse rawParam
    | _ =>
      -- the top bit says whether an unknown parameter may be skipped
      if (rawType >>> 15) &&& 1 = 0 then
        .err (.errParamTypeUnhandled rawType)
      else
        Param.unmarshalUnknown rawParam

end Sctp
