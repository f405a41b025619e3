import Sctp.Wire.Packet

/-!
# Chunk framing

Where the chunk loop of `Packet::unmarshal` finds the chunks of a packet, and where the
length fields of the packet put them. `Chunk.Whole` says of a chunk on the wire that the
length its decoder recomputes is the length the chunk declares, in terms of the length and
count fields of its bytes.
-/

namespace Sctp

/-- A length rounded up to a multiple of four. -/
def padded (len : ℕ) : ℕ := len + getPaddingSize len

/-! ## What the decoders account for -/

/-- The length the decoder of a parameter gives it: its own length field, but for the
parameters of a fixed form and the odd byte after a list of two-byte entries. -/
def paramSpan (rawParam : Bytes) : ℕ :=
  let len := (Bytes.u16At rawParam 2).toNat
  match ParamType.ofU16 (Bytes.u16At rawParam 0) with
  | .forwardTsnSupp => paramHeaderLength
  | .reqHmacAlgo => paramHeaderLength + 2 * ((len - paramHeaderLength) / 2)
  | .outSsnResetReq =>
    paramHeaderLength + (paramOutgoingResetRequestStreamIdentifiersOffset +
      2 * ((len - paramHeaderLength - paramOutgoingResetRequestStreamIdentifiersOffset) / 2))
  | .reconfigResp => paramHeaderLength + 8
  | _ => paramHeaderLength + (len - paramHeaderLength)

theorem le_paramSpan (rawParam : Bytes) : paramHeaderLength ≤ paramSpan rawParam := by
  unfold paramSpan
  dsimp only
  split <;> omega

namespace Chunk

/-- The length field of a chunk header. -/
def lengthField (raw : Bytes) : ℕ := (Bytes.u16At raw 2).toNat

/-- Where the parameters of an INIT end, which are read while the packet holds more than a
parameter header. -/
def initParamsEnd (raw : Bytes) (offset : ℕ) : ℕ :=
  if offset + initOptionalVarHeaderLength < raw.length then
    initParamsEnd raw (offset + padded (paramSpan (raw.drop offset)))
  else
    offset
termination_by raw.length - offset
decreasing_by
  have := le_paramSpan (raw.drop offset)
  simp only [padded, paramHeaderLength] at *
  omega

/-- Where the parameter B of a RECONFIG starts. -/
def reconfigParamBStart (raw : Bytes) : ℕ :=
  chunkHeaderSize + padded (paramSpan (raw.drop chunkHeaderSize))

/-- Where the parameters of a RECONFIG end: a parameter B is read where the chunk goes on
after the parameter A. -/
def reconfigParamsEnd (raw : Bytes) : ℕ :=
  if lengthField raw > reconfigParamBStart raw then
    reconfigParamBStart raw + padded (paramSpan (raw.drop (reconfigParamBStart raw)))
  else
    reconfigParamBStart raw

/-- The chunk at the head of `raw` declares no more than its decoder accounts for. -/
def Whole (raw : Bytes) : Prop :=
  match raw[0]? with
  | none => True
  | some ct =>
    if ct = ctInit ∨ ct = ctInitAck then
      padded (lengthField raw) = initParamsEnd raw (chunkHeaderSize + initChunkMinLength)
    else if ct = ctSack then
      lengthField raw = chunkHeaderSize + selectiveAckHeaderSize +
        4 * ((Bytes.u16At raw 12).toNat + (Bytes.u16At raw 14).toNat)
    else if ct = ctHeartbeat then
      padded (lengthField raw) = chunkHeaderSize + padded (paramSpan (raw.drop chunkHeaderSize))
    else if ct = ctReconfig then
      padded (lengthField raw) = reconfigParamsEnd raw
    else if ct = ctCookieAck ∨ ct = ctShutdownAck ∨ ct = ctShutdownComplete then
      lengthField raw = chunkHeaderSize
    else
      True

end Chunk

/-! ## The two walks -/

namespace Packet

/-- Where the chunk loop found the chunks it returned, when it started at `offset`. -/
def startOffsets (offset : ℕ) : List Chunk → List ℕ
  | [] => []
  | c :: cs => offset :: startOffsets (offset + advance c) cs

/-- The offsets of the chunk headers from `offset` on, each length field rounded up to a
multiple of four. -/
def wireOffsets (raw : Bytes) (offset : ℕ) : List ℕ :=
  if offset + chunkHeaderSize ≤ raw.length then
    if chunkHeaderSize ≤ Chunk.lengthField (raw.drop offset) then
      offset :: wireOffsets raw (offset + padded (Chunk.lengthField (raw.drop offset)))
    else
      [offset]
  else
    []
termination_by raw.length - offset
decreasing_by
  simp only [padded, chunkHeaderSize] at *
  omega

/-- The chunks of the packet start where the length fields put them. -/
def FollowsLengths (raw : Bytes) (p : Packet) : Prop :=
  startOffsets packetHeaderSize p.chunks = wireOffsets raw packetHeaderSize

end Packet

end Sctp
