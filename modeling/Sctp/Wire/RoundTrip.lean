import Sctp.Wire.Marshal

/-!
# Round trips

What it means that a packet comes back from the wire as it was sent, and for which values
that is asked.
-/

namespace Sctp

/-! ## Values that can be put on the wire -/

namespace Param

/-- The kinds `build_param` has a decoder for. -/
def hasDecoder : ParamType → Bool
  | .forwardTsnSupp | .supportedExt | .random | .reqHmacAlgo | .chunkList | .stateCookie
  | .heartbeatInfo | .outSsnResetReq | .reconfigResp => true
  | _ => false

/-- A value of a kind that `build_param` builds. -/
def WellFormed : Param → Prop
  | unknown typ _ => hasDecoder (ParamType.ofU16 typ) = false ∧ (typ >>> 15) &&& 1 ≠ 0
  | unrecognized _ => False
  | _ => True

/-- The identifiers of a requested HMAC algorithm parameter are those of SHA-1 and SHA-256. -/
def KnownAlgorithms : Param → Prop
  | requestedHmacAlgorithm algorithms => ∀ a ∈ algorithms, a = .hmacSha128 ∨ a = .hmacSha256
  | _ => True

end Param

namespace Chunk

/-- The kinds `Packet::unmarshal` dispatches on. -/
def hasDecoder (ct : ChunkType) : Bool :=
  ct ∈ [ctInit, ctInitAck, ctAbort, ctCookieEcho, ctCookieAck, ctHeartbeat, ctPayloadData, ctSack,
    ctReconfig, ctForwardTsn, ctError, ctShutdown, ctShutdownAck, ctShutdownComplete]

/-- The length field can hold the length of the chunk, and the parts have the form that its
kind asks for. -/
def WellFormed (c : Chunk) : Prop :=
  chunkHeaderSize + c.valueLength ≤ 65535 ∧
    match c with
    | init c => ∀ p ∈ c.params, p.WellFormed
    | heartbeat params | heartbeatAck params => ∃ info, params = [.heartbeatInfo info]
    | reconfig c =>
      (∃ paramA, c.paramA = some paramA ∧ paramA.WellFormed) ∧
        ∀ paramB, c.paramB = some paramB → paramB.WellFormed
    | unknown hdr value =>
      hasDecoder hdr.typ = false ∧ hdr.valueLength = BitVec.ofNat 16 value.length
    | _ => True

/-- The chunk as the wire carries it, without the sender's bookkeeping. -/
def wire : Chunk → Chunk
  | payloadData c =>
    payloadData
      { unordered := c.unordered
        beginningFragment := c.beginningFragment
        endingFragment := c.endingFragment
        immediateSack := c.immediateSack
        tsn := c.tsn
        streamIdentifier := c.streamIdentifier
        streamSequenceNumber := c.streamSequenceNumber
        payloadType := c.payloadType
        userData := c.userData }
  | c => c

/-- An INIT or an INIT ACK. -/
def isInit : Chunk → Bool
  | init _ => true
  | _ => false

/-- The parameters of a chunk. -/
def params : Chunk → List Param
  | init c => c.params
  | heartbeat params | heartbeatAck params => params
  | reconfig c => c.paramA.toList ++ c.paramB.toList
  | _ => []

/-- The last parameter of an INIT is more than a header, and no parameter asks for an
algorithm the decoders refuse. A HEARTBEAT ACK has no decoder. -/
def Recoverable : Chunk → Prop
  | init c =>
    (∀ p ∈ c.params, p.KnownAlgorithms) ∧ ∀ p, c.params.getLast? = some p → 0 < p.valueLength
  | reconfig c =>
    (∀ p, c.paramA = some p → p.KnownAlgorithms) ∧ ∀ p, c.paramB = some p → p.KnownAlgorithms
  | heartbeatAck _ => False
  | _ => True

/-- The kinds whose decoders go on, or count, up to the end of the packet. -/
def readsOn : Chunk → Bool
  | abort _ | error _ | forwardTsn _ | shutdown _ => true
  | _ => false

end Chunk

namespace Packet

/-- The packet with the chunks as they come off the wire. -/
def wire (p : Packet) : Packet := { p with chunks := p.chunks.map Chunk.wire }

/-- What the packet is marshalled to is unmarshalled to the packet. -/
def RoundTrips (crc : Bytes → U32) (p : Packet) : Prop :=
  ∃ raw, p.marshal crc = .ok raw ∧ unmarshal crc raw = .ok p.wire

/-- What the receiver decodes of packets that are marshalled one after the other. -/
def receivedChunks (crc : Bytes → U32) : List Packet → Outcome Error (List Chunk)
  | [] => .ok []
  | p :: ps =>
    match p.marshal crc with
    | .error e => .err e
    | .ok raw => do
      let q ← unmarshal crc raw
      let chunks ← receivedChunks crc ps
      .ok (q.chunks ++ chunks)

end Packet

end Sctp
