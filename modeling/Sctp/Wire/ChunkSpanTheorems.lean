import Sctp.Wire.Framing
import Sctp.Wire.ChunkTheorems

/-!
# How far each decoder moves the chunk loop on

What a decoder recomputes as the length of its chunk, told from the length and count fields on
the wire. The chunks for which this is the length they declare are the ones that are
`Chunk.Whole`.
-/

namespace Sctp

open Outcome

theorem padded_of_mod {len : ℕ} (h : len % 4 = 0) : padded len = len := by
  unfold padded getPaddingSize paddingMultiple
  omega

theorem padded_add_of_mod {a : ℕ} (h : a % 4 = 0) (b : ℕ) : padded (a + b) = a + padded b := by
  unfold padded
  rw [getPaddingSize_add h, Nat.add_assoc]

theorem padded_mod (len : ℕ) : padded len % 4 = 0 := add_getPaddingSize_mod len

theorem le_padded (len : ℕ) : len ≤ padded len := Nat.le_add_right _ _

theorem padded_lt (len : ℕ) : padded len < len + 4 :=
  Nat.add_lt_add_left (getPaddingSize_lt len) len

/-- The only multiple of four that is at least `len` and less than four ahead. -/
theorem padded_eq {len n : ℕ} (hmod : n % 4 = 0) (hle : len ≤ n) (hlt : n < len + 4) :
    padded len = n := by
  have hmod' := padded_mod len
  have hle' := le_padded len
  have hlt' := padded_lt len
  omega

/-- How far the reader goes on: header and value, padded. -/
theorem Packet.advance_eq (c : Chunk) :
    advance c = padded (chunkHeaderSize + c.valueLength) := by
  unfold advance padded getPaddingSize paddingMultiple chunkHeaderSize
  omega

/-! ## Parameters -/

/-- The length field of a parameter header that decodes. -/
theorem ParamHeader.length_eq {raw : Bytes} {header : ParamHeader}
    (h : ParamHeader.unmarshal raw = .ok header) :
    paramHeaderLength + header.valueLength.toNat = (Bytes.u16At raw 2).toNat := by
  unfold ParamHeader.unmarshal at h
  split at h
  · cases h
  · obtain ⟨⟨typ, reader⟩, h1, h⟩ := bind_eq_ok.mp h
    obtain ⟨⟨len, _⟩, h2, h⟩ := bind_eq_ok.mp h
    have hreader := (Bytes.getU16_eq_ok h1).2
    have hlen := (Bytes.getU16_eq_ok h2).1
    rw [hreader, Bytes.u16At_drop] at hlen
    dsimp only at h
    split at h
    · cases h
    · rename_i hge
      cases h
      have hlt := len.isLt
      rw [← hlen]
      simp only [paramHeaderLength, BitVec.toNat_ofNat] at *
      omega

/-- The decoders that take the value as it is account for the length field. -/
theorem Param.value_span {raw : Bytes} {mk : ParamHeader → Bytes → Param} {p : Param}
    (hmk : ∀ header value, (mk header value).valueLength = value.length)
    (h : (do
      let header ← ParamHeader.unmarshal raw
      let value ← header.value raw
      .ok (mk header value) : Outcome Error Param) = .ok p) :
    p.valueLength = (Bytes.u16At raw 2).toNat - paramHeaderLength := by
  obtain ⟨header, hh, h⟩ := bind_eq_ok.mp h
  obtain ⟨value, hv, h⟩ := bind_eq_ok.mp h
  have hl := (Bytes.slice_eq_ok hv).2
  have hlen := ParamHeader.length_eq hh
  cases h
  rw [hmk]
  omega

theorem Param.unmarshalChunkList_span {raw : Bytes} {p : Param}
    (h : unmarshalChunkList raw = .ok p) :
    p.valueLength = (Bytes.u16At raw 2).toNat - paramHeaderLength := by
  obtain ⟨header, hh, h⟩ := bind_eq_ok.mp h
  split at h
  · cases h
  · have htaken : (do
        let header ← ParamHeader.unmarshal raw
        let reader ← header.value raw
        .ok (chunkList reader) : Outcome Error Param) = .ok p :=
      bind_eq_ok.mpr ⟨header, hh, h⟩
    exact value_span (fun _ _ => rfl) htaken

theorem Param.readHmacAlgorithms_length {valueLength offset : ℕ} {reader : Bytes}
    {before algorithms : List HmacAlgorithm}
    (h : readHmacAlgorithms valueLength offset reader before = .ok algorithms) :
    algorithms.length = before.length + (valueLength - offset) / 2 := by
  induction offset, reader, before using readHmacAlgorithms.induct valueLength with
  | case1 offset reader before hlt ih =>
    rw [readHmacAlgorithms, if_pos hlt] at h
    obtain ⟨⟨v, reader'⟩, -, h⟩ := bind_eq_ok.mp h
    dsimp only at h
    split at h
    · have hlen := ih _ _ h
      rw [List.length_append, List.length_singleton] at hlen
      omega
    · cases h
  | case2 offset reader before hlt =>
    rw [readHmacAlgorithms, if_neg hlt] at h
    cases h
    omega

theorem Param.readU16s_length {n : ℕ} {reader : Bytes} {vs : List U16}
    (h : readU16s n reader = .ok vs) : vs.length = n := by
  induction n generalizing reader vs with
  | zero =>
    cases h
    rfl
  | succ n ih =>
    obtain ⟨⟨v, reader'⟩, -, h⟩ := bind_eq_ok.mp h
    obtain ⟨vs', hvs, h⟩ := bind_eq_ok.mp h
    cases h
    rw [List.length_cons, ih hvs]

theorem Param.unmarshalRequestedHmacAlgorithm_span {raw : Bytes} {p : Param}
    (h : unmarshalRequestedHmacAlgorithm raw = .ok p) :
    p.valueLength = 2 * (((Bytes.u16At raw 2).toNat - paramHeaderLength) / 2) := by
  obtain ⟨header, hh, h⟩ := bind_eq_ok.mp h
  obtain ⟨reader, -, h⟩ := bind_eq_ok.mp h
  obtain ⟨algorithms, ha, h⟩ := bind_eq_ok.mp h
  have hlen := ParamHeader.length_eq hh
  have hn := readHmacAlgorithms_length ha
  cases h
  unfold Param.valueLength
  rw [hn, List.length_nil]
  omega

theorem Param.unmarshalOutgoingResetRequest_span {raw : Bytes} {p : Param}
    (h : unmarshalOutgoingResetRequest raw = .ok p) :
    p.valueLength = paramOutgoingResetRequestStreamIdentifiersOffset +
      2 * (((Bytes.u16At raw 2).toNat - paramHeaderLength -
        paramOutgoingResetRequestStreamIdentifiersOffset) / 2) := by
  obtain ⟨header, hh, h⟩ := bind_eq_ok.mp h
  have hlen := ParamHeader.length_eq hh
  dsimp only at h
  split at h
  · cases h
  · obtain ⟨reader, -, h⟩ := bind_eq_ok.mp h
    obtain ⟨⟨_, reader1⟩, -, h⟩ := bind_eq_ok.mp h
    obtain ⟨⟨_, reader2⟩, -, h⟩ := bind_eq_ok.mp h
    obtain ⟨⟨_, reader3⟩, -, h⟩ := bind_eq_ok.mp h
    obtain ⟨identifiers, hi, h⟩ := bind_eq_ok.mp h
    have hn := readU16s_length hi
    cases h
    unfold Param.valueLength
    dsimp only
    rw [hn, ← hlen, Nat.add_sub_cancel_left]
    omega

theorem Param.unmarshalReconfigResponse_span {raw : Bytes} {p : Param}
    (h : unmarshalReconfigResponse raw = .ok p) : p.valueLength = 8 := by
  obtain ⟨header, -, h⟩ := bind_eq_ok.mp h
  split at h
  · cases h
  · obtain ⟨reader, -, h⟩ := bind_eq_ok.mp h
    obtain ⟨⟨_, reader1⟩, -, h⟩ := bind_eq_ok.mp h
    obtain ⟨⟨_, reader2⟩, -, h⟩ := bind_eq_ok.mp h
    cases h
    rfl

/-- A decoded parameter has the length its bytes tell. -/
theorem buildParam_span {rawParam : Bytes} {p : Param} (h : buildParam rawParam = .ok p) :
    paramHeaderLength ≤ rawParam.length ∧
      paramHeaderLength + p.valueLength = paramSpan rawParam := by
  unfold buildParam at h
  split at h
  · cases h
  · rename_i hlong
    refine ⟨Nat.not_lt.mp hlong, ?_⟩
    obtain ⟨reader, hr, h⟩ := bind_eq_ok.mp h
    obtain ⟨⟨rawType, _⟩, ht, h⟩ := bind_eq_ok.mp h
    have htyp := (Bytes.getU16_eq_ok ht).1
    rw [(Bytes.slice_eq_ok hr).1, List.drop_zero, Bytes.u16At_take (by decide)] at htyp
    subst htyp
    unfold paramSpan
    dsimp only at h ⊢
    split at h
    · rename_i hv
      rw [hv]
      obtain ⟨header, -, h⟩ := bind_eq_ok.mp h
      cases h
      rfl
    · rename_i hv
      rw [hv, Param.value_span (fun _ _ => rfl) h]
    · rename_i hv
      rw [hv, Param.value_span (fun _ _ => rfl) h]
    · rename_i hv
      rw [hv, Param.unmarshalRequestedHmacAlgorithm_span h]
    · rename_i hv
      rw [hv, Param.unmarshalChunkList_span h]
    · rename_i hv
      rw [hv, Param.value_span (fun _ _ => rfl) h]
    · rename_i hv
      rw [hv, Param.value_span (fun _ _ => rfl) h]
    · rename_i hv
      rw [hv, Param.unmarshalOutgoingResetRequest_span h]
    · rename_i hv
      rw [hv, Param.unmarshalReconfigResponse_span h]
    · rename_i hforward _ _ hhmac _ _ _ hreset hresponse
      split at h
      · cases h
      · rw [Param.value_span (fun _ _ => rfl) h]
        -- the types with a form of their own are gone
        split
        · exact absurd ‹_› hforward
        · exact absurd ‹_› hhmac
        · exact absurd ‹_› hreset
        · exact absurd ‹_› hresponse
        · rfl

/-- The length of a parameter does not depend on what comes after the bytes it is read
from. -/
theorem paramSpan_slice {raw : Bytes} {start stop : ℕ} (h : start + 4 ≤ stop) :
    paramSpan ((raw.take stop).drop start) = paramSpan (raw.drop start) := by
  unfold paramSpan
  rw [Bytes.u16At_drop, Bytes.u16At_drop, Bytes.u16At_drop, Bytes.u16At_drop,
    Bytes.u16At_take (by omega), Bytes.u16At_take (by omega)]

/-- A parameter decoded from a part of the chunk. -/
theorem buildParam_span_of_slice {raw rawParam : Bytes} {start stop : ℕ} {p : Param}
    (hslice : (raw.slice start stop : Outcome Error Bytes) = .ok rawParam)
    (h : buildParam rawParam = .ok p) :
    paramHeaderLength + p.valueLength = paramSpan (raw.drop start) := by
  obtain ⟨hraw, hlen⟩ := Bytes.slice_eq_ok hslice
  obtain ⟨hlong, hspan⟩ := buildParam_span h
  have hlong' : 4 ≤ rawParam.length := hlong
  rw [hspan, hraw, paramSpan_slice (by omega)]

/-! ## Chunks -/

namespace Chunk

/-- The length field of a chunk header that decodes. -/
theorem lengthField_eq {raw : Bytes} {header : ChunkHeader}
    (h : ChunkHeader.unmarshal raw = .ok header) : lengthField raw = header.stop := by
  unfold ChunkHeader.unmarshal at h
  split at h
  · cases h
  · obtain ⟨⟨typ, reader1⟩, h1, h⟩ := bind_eq_ok.mp h
    obtain ⟨⟨flags, reader2⟩, h2, h⟩ := bind_eq_ok.mp h
    obtain ⟨⟨length, _⟩, h3, h⟩ := bind_eq_ok.mp h
    have hfield : Bytes.u16At raw 2 = length := by
      rw [(Bytes.getU16_eq_ok h3).1, Bytes.getU8_eq_ok h1, Bytes.getU8_eq_ok h2]
      rfl
    have hstop : ¬ length.toNat < chunkHeaderSize →
        length.toNat =
          chunkHeaderSize + (length - BitVec.ofNat 16 chunkHeaderSize).toNat := by
      intro hge
      have hlt := length.isLt
      simp only [chunkHeaderSize, BitVec.toNat_sub, BitVec.toNat_ofNat] at *
      omega
    unfold lengthField ChunkHeader.stop
    rw [hfield]
    dsimp only at h
    split at h
    · cases h
    · rename_i hge
      split at h
      · cases h
      · split at h
        · obtain ⟨_, -, h⟩ := bind_eq_ok.mp h
          cases h
          exact hstop hge
        · cases h
          exact hstop hge

/-- A decoder whose chunk has the value its header declares moves on by the length field. -/
theorem advance_of_value {raw : Bytes} {header : ChunkHeader} {c : Chunk}
    (hh : ChunkHeader.unmarshal raw = .ok header)
    (hc : c.valueLength = header.valueLength.toNat) :
    Packet.advance c = padded (lengthField raw) := by
  rw [Packet.advance_eq, lengthField_eq hh, hc, ChunkHeader.stop]

/-- What the parameter loop of an INIT decodes reaches from `offset` to the end of the
parameters on the wire. -/
theorem unmarshalInitParams_end {raw : Bytes} {stop offset : ℕ} {remaining : ℤ}
    {params : List Param} (hrem : remaining = raw.length - offset) (hmod : offset % 4 = 0)
    (h : unmarshalInitParams raw stop offset remaining = .ok params) :
    padded (offset + paramsLength params) = initParamsEnd raw offset := by
  induction offset, remaining using unmarshalInitParams.induct generalizing params with
  | case1 offset remaining more ih =>
    have hmore : offset + initOptionalVarHeaderLength < raw.length := by omega
    rw [unmarshalInitParams, if_pos more] at h
    obtain ⟨rawParam, hslice, h⟩ := bind_eq_ok.mp h
    obtain ⟨p, hp, h⟩ := bind_eq_ok.mp h
    obtain ⟨params', hparams, h⟩ := bind_eq_ok.mp h
    have hspan := buildParam_span_of_slice hslice hp
    have hstep : paramHeaderLength + p.valueLength +
        getPaddingSize (paramHeaderLength + p.valueLength) =
          padded (paramSpan (raw.drop offset)) := by
      rw [hspan]
      rfl
    have hmod' : (offset + padded (paramSpan (raw.drop offset))) % 4 = 0 := by
      have hpad := padded_mod (paramSpan (raw.drop offset))
      omega
    have hrest := ih p (by push_cast; omega) (by rw [hstep]; exact hmod') hparams
    rw [hstep] at hrest
    rw [initParamsEnd, if_pos hmore, ← hrest]
    cases h
    cases params' with
    | nil =>
      rw [paramsLength, paramsLength, hspan, padded_add_of_mod hmod, Nat.add_zero,
        padded_of_mod hmod']
    | cons q qs =>
      rw [paramsLength, hstep, Nat.add_assoc]
      exact List.cons_ne_nil q qs
  | case2 offset remaining more =>
    have hdone : ¬ offset + initOptionalVarHeaderLength < raw.length := by omega
    rw [unmarshalInitParams, if_neg more] at h
    cases h
    rw [initParamsEnd, if_neg hdone, paramsLength, Nat.add_zero, padded_of_mod hmod]

/-- An INIT is as long as its parameters. -/
theorem unmarshalInit_advance {raw : Bytes} {c : Chunk} (h : unmarshalInit raw = .ok c) :
    Packet.advance c = initParamsEnd raw (chunkHeaderSize + initChunkMinLength) := by
  obtain ⟨header, -, h⟩ := bind_eq_ok.mp h
  split at h
  · cases h
  · split at h
    · cases h
    · split at h
      · cases h
      · obtain ⟨reader, -, h⟩ := bind_eq_ok.mp h
        obtain ⟨⟨_, reader1⟩, -, h⟩ := bind_eq_ok.mp h
        obtain ⟨⟨_, reader2⟩, -, h⟩ := bind_eq_ok.mp h
        obtain ⟨⟨_, reader3⟩, -, h⟩ := bind_eq_ok.mp h
        obtain ⟨⟨_, reader4⟩, -, h⟩ := bind_eq_ok.mp h
        obtain ⟨⟨_, reader5⟩, -, h⟩ := bind_eq_ok.mp h
        obtain ⟨params, hparams, h⟩ := bind_eq_ok.mp h
        have hend := unmarshalInitParams_end rfl (by decide) hparams
        cases h
        rw [Packet.advance_eq, ← hend]
        unfold Chunk.valueLength initChunkMinLength
        dsimp only
        rw [← Nat.add_assoc]

/-- The error causes end inside the chunk, with less than a cause header left in the
packet. -/
theorem unmarshalErrorCauses_end {raw : Bytes} {stop offset : ℕ} {causes : List ErrorCause}
    (hle : offset ≤ stop) (h : unmarshalErrorCauses raw stop offset = .ok causes) :
    offset + (causes.map ErrorCause.length).sum ≤ stop ∧
      raw.length < offset + (causes.map ErrorCause.length).sum + 4 := by
  induction offset using unmarshalErrorCauses.induct raw generalizing causes with
  | case1 offset more ih =>
    rw [unmarshalErrorCauses, if_pos more] at h
    obtain ⟨rawCause, hslice, h⟩ := bind_eq_ok.mp h
    obtain ⟨e, he, h⟩ := bind_eq_ok.mp h
    obtain ⟨causes', hcauses, h⟩ := bind_eq_ok.mp h
    have hlen := (Bytes.slice_eq_ok hslice).2
    have hcause := ErrorCause.length_le he
    have hrest := ih e (by omega) hcauses
    cases h
    rw [List.map_cons, List.sum_cons]
    omega
  | case2 offset more =>
    rw [unmarshalErrorCauses, if_neg more] at h
    cases h
    simp only [List.map_nil, List.sum_nil]
    omega

/-- Where the packet has a chunk header or nothing after an ABORT or ERROR, its error causes
are the chunk. -/
theorem errorCauses_advance {raw : Bytes} {ct : ChunkType} {e : Error} {c : Chunk}
    {chunk : List ErrorCause → Chunk}
    (hvalue : ∀ causes, (chunk causes).valueLength = (causes.map ErrorCause.length).sum)
    (h : (do
      let header ← ChunkHeader.unmarshal raw
      if header.typ ≠ ct then
        .err e
      else
        let errorCauses ← unmarshalErrorCauses raw header.stop chunkHeaderSize
        .ok (chunk errorCauses) : Outcome Error Chunk) = .ok c)
    (hend : Packet.advance c = raw.length ∨
      Packet.advance c + chunkHeaderSize ≤ raw.length) :
    Packet.advance c = padded (lengthField raw) := by
  obtain ⟨header, hh, h⟩ := bind_eq_ok.mp h
  split at h
  · cases h
  · obtain ⟨causes, hcauses, h⟩ := bind_eq_ok.mp h
    cases h
    have hstop := (ChunkHeader.unmarshal_eq_ok hh).2
    have hge : chunkHeaderSize ≤ header.stop := Nat.le_add_right _ _
    obtain ⟨hin, hleft⟩ := unmarshalErrorCauses_end hge hcauses
    rw [lengthField_eq hh]
    rw [Packet.advance_eq, hvalue] at hend ⊢
    have hmod := padded_mod (chunkHeaderSize + (causes.map ErrorCause.length).sum)
    have hle := le_padded (chunkHeaderSize + (causes.map ErrorCause.length).sum)
    have hlt := padded_lt (chunkHeaderSize + (causes.map ErrorCause.length).sum)
    unfold chunkHeaderSize at *
    exact (padded_eq hmod (by omega) (by omega)).symm

/-- A COOKIE ECHO is as long as its header says. -/
theorem unmarshalCookieEcho_advance {raw : Bytes} {c : Chunk}
    (h : unmarshalCookieEcho raw = .ok c) : Packet.advance c = padded (lengthField raw) := by
  obtain ⟨header, hh, h⟩ := bind_eq_ok.mp h
  split at h
  · cases h
  · obtain ⟨cookie, hcookie, h⟩ := bind_eq_ok.mp h
    have hlen := (Bytes.slice_eq_ok hcookie).2
    cases h
    refine advance_of_value hh ?_
    rw [ChunkHeader.stop, Nat.add_sub_cancel_left] at hlen
    exact hlen

/-- So is an unknown chunk. -/
theorem unmarshalUnknown_advance {raw : Bytes} {c : Chunk} (h : unmarshalUnknown raw = .ok c) :
    Packet.advance c = padded (lengthField raw) := by
  obtain ⟨header, hh, h⟩ := bind_eq_ok.mp h
  obtain ⟨value, hvalue, h⟩ := bind_eq_ok.mp h
  have hlen := (Bytes.slice_eq_ok hvalue).2
  cases h
  refine advance_of_value hh ?_
  rw [ChunkHeader.stop, Nat.add_sub_cancel_left] at hlen
  exact hlen

/-- So is a DATA chunk. -/
theorem unmarshalPayloadData_advance {raw : Bytes} {c : Chunk}
    (h : unmarshalPayloadData raw = .ok c) : Packet.advance c = padded (lengthField raw) := by
  obtain ⟨header, hh, h⟩ := bind_eq_ok.mp h
  split at h
  · cases h
  · split at h
    · cases h
    · rename_i hlong
      obtain ⟨reader, -, h⟩ := bind_eq_ok.mp h
      obtain ⟨⟨_, reader1⟩, -, h⟩ := bind_eq_ok.mp h
      obtain ⟨⟨_, reader2⟩, -, h⟩ := bind_eq_ok.mp h
      obtain ⟨⟨_, reader3⟩, -, h⟩ := bind_eq_ok.mp h
      obtain ⟨⟨_, reader4⟩, -, h⟩ := bind_eq_ok.mp h
      obtain ⟨userData, hdata, h⟩ := bind_eq_ok.mp h
      have hlen := (Bytes.slice_eq_ok hdata).2
      cases h
      refine advance_of_value hh ?_
      unfold Chunk.valueLength ChunkHeader.stop at *
      dsimp only
      omega

/-- The decoders of the chunks without a value. -/
theorem header_advance {raw : Bytes} {ct : ChunkType} {e : Error} {c c' : Chunk}
    (hempty : c'.valueLength = 0)
    (h : (do
      let header ← ChunkHeader.unmarshal raw
      if header.typ ≠ ct then
        .err e
      else
        .ok c' : Outcome Error Chunk) = .ok c) :
    Packet.advance c = chunkHeaderSize := by
  obtain ⟨header, -, h⟩ := bind_eq_ok.mp h
  split at h
  · cases h
  · cases h
    rw [Packet.advance_eq, hempty]
    rfl

/-- A HEARTBEAT is as long as its parameter. -/
theorem unmarshalHeartbeat_advance {raw : Bytes} {c : Chunk}
    (h : unmarshalHeartbeat raw = .ok c) :
    Packet.advance c = chunkHeaderSize + padded (paramSpan (raw.drop chunkHeaderSize)) := by
  obtain ⟨header, hh, h⟩ := bind_eq_ok.mp h
  split at h
  · cases h
  · split at h
    · cases h
    · obtain ⟨rawParam, hslice, h⟩ := bind_eq_ok.mp h
      obtain ⟨p, hp, h⟩ := bind_eq_ok.mp h
      have hspan := buildParam_span_of_slice hslice hp
      split at h
      · cases h
      · cases h
        rw [Packet.advance_eq, ← hspan, padded_add_of_mod (by decide)]
        rfl

/-- A RECONFIG is as long as its parameters. -/
theorem unmarshalReconfig_advance {raw : Bytes} {c : Chunk}
    (h : unmarshalReconfig raw = .ok c) : Packet.advance c = reconfigParamsEnd raw := by
  obtain ⟨header, hh, h⟩ := bind_eq_ok.mp h
  split at h
  · cases h
  · obtain ⟨rawParam, hslice, h⟩ := bind_eq_ok.mp h
    obtain ⟨paramA, hA, h⟩ := bind_eq_ok.mp h
    have hspanA := buildParam_span_of_slice hslice hA
    have hstart : chunkHeaderSize + paramHeaderLength + paramA.valueLength +
        getPaddingSize (paramHeaderLength + paramA.valueLength) = reconfigParamBStart raw := by
      unfold reconfigParamBStart
      rw [← hspanA]
      unfold padded
      omega
    have hpadA := padded_mod (paramSpan (raw.drop chunkHeaderSize))
    unfold reconfigParamsEnd
    rw [lengthField_eq hh, Packet.advance_eq]
    dsimp only at h
    rw [hstart] at h
    split at h
    · rename_i hB
      obtain ⟨rawParamB, hsliceB, h⟩ := bind_eq_ok.mp h
      obtain ⟨paramB, hparamB, h⟩ := bind_eq_ok.mp h
      have hspanB := buildParam_span_of_slice hsliceB hparamB
      cases h
      rw [if_pos hB, ← hspanB, ← hstart]
      unfold Chunk.valueLength ChunkReconfig.valueLength
      dsimp only [Option.map_some, Option.getD_some]
      unfold padded getPaddingSize paddingMultiple chunkHeaderSize paramHeaderLength
      omega
    · rename_i hB
      cases h
      rw [if_neg hB, ← hstart]
      unfold Chunk.valueLength ChunkReconfig.valueLength
      dsimp only [Option.map_some, Option.getD_some]
      unfold padded getPaddingSize paddingMultiple chunkHeaderSize paramHeaderLength
      omega

theorem readGapAckBlocks_length {n : ℕ} {reader rest : Bytes} {blocks : List GapAckBlock}
    (h : readGapAckBlocks n reader = .ok (blocks, rest)) : blocks.length = n := by
  induction n generalizing reader blocks rest with
  | zero =>
    cases h
    rfl
  | succ n ih =>
    obtain ⟨⟨_, reader1⟩, -, h⟩ := bind_eq_ok.mp h
    obtain ⟨⟨_, reader2⟩, -, h⟩ := bind_eq_ok.mp h
    obtain ⟨⟨blocks', rest'⟩, hrest, h⟩ := bind_eq_ok.mp h
    cases h
    rw [List.length_cons, ih hrest]

theorem readDuplicateTsn_length {n : ℕ} {reader : Bytes} {ts : List U32}
    (h : readDuplicateTsn n reader = .ok ts) : ts.length = n := by
  induction n generalizing reader ts with
  | zero =>
    cases h
    rfl
  | succ n ih =>
    obtain ⟨⟨_, reader1⟩, -, h⟩ := bind_eq_ok.mp h
    obtain ⟨ts', hts, h⟩ := bind_eq_ok.mp h
    cases h
    rw [List.length_cons, ih hts]

/-- A SACK takes its header and the entries its two counts announce. -/
theorem unmarshalSelectiveAck_advance {raw : Bytes} {c : Chunk}
    (h : unmarshalSelectiveAck raw = .ok c) :
    Packet.advance c = chunkHeaderSize + selectiveAckHeaderSize +
        4 * ((Bytes.u16At raw 12).toNat + (Bytes.u16At raw 14).toNat) ∧
      Packet.advance c ≤ lengthField raw := by
  obtain ⟨header, hh, h⟩ := bind_eq_ok.mp h
  dsimp only at h
  split at h
  · cases h
  · split at h
    · cases h
    · rename_i hlong
      obtain ⟨reader, hvalue, h⟩ := bind_eq_ok.mp h
      obtain ⟨⟨_, reader1⟩, h1, h⟩ := bind_eq_ok.mp h
      obtain ⟨⟨_, reader2⟩, h2, h⟩ := bind_eq_ok.mp h
      obtain ⟨⟨gapLen, reader3⟩, h3, h⟩ := bind_eq_ok.mp h
      obtain ⟨⟨dupLen, reader4⟩, h4, h⟩ := bind_eq_ok.mp h
      dsimp only at h
      split at h
      · cases h
      · rename_i hroom
        obtain ⟨⟨blocks, rest⟩, hblocks, h⟩ := bind_eq_ok.mp h
        obtain ⟨duplicates, hduplicates, h⟩ := bind_eq_ok.mp h
        -- both loops give as many entries as they were asked for
        have hgap := readGapAckBlocks_length hblocks
        have hdup := readDuplicateTsn_length hduplicates
        have hstop : 16 ≤ header.stop := by
          unfold ChunkHeader.stop chunkHeaderSize
          unfold selectiveAckHeaderSize at hlong
          omega
        -- the two counts stand behind the TSN and the window
        have hreader2 : reader2 = (raw.take header.stop).drop 12 := by
          rw [(Bytes.getU32_eq_ok h2).2, (Bytes.getU32_eq_ok h1).2, (Bytes.slice_eq_ok hvalue).1,
            List.drop_drop, List.drop_drop]
          rfl
        have hgapLen : gapLen = Bytes.u16At raw 12 := by
          rw [(Bytes.getU16_eq_ok h3).1, hreader2, Bytes.u16At_drop, Bytes.u16At_take (by omega)]
        have hdupLen : dupLen = Bytes.u16At raw 14 := by
          rw [(Bytes.getU16_eq_ok h4).1, (Bytes.getU16_eq_ok h3).2, hreader2, Bytes.u16At_drop,
            Bytes.u16At_drop, Bytes.u16At_take (by omega)]
        cases h
        rw [lengthField_eq hh, Packet.advance_eq, ← hgapLen, ← hdupLen]
        unfold Chunk.valueLength ChunkHeader.stop
        dsimp only
        rw [hgap, hdup]
        have hmod : (chunkHeaderSize +
            (selectiveAckHeaderSize + gapLen.toNat * 4 + dupLen.toNat * 4)) % 4 = 0 := by
          unfold chunkHeaderSize selectiveAckHeaderSize
          omega
        rw [padded_of_mod hmod]
        omega

/-- The stream loop of a FORWARD TSN runs to the end of the packet, and the chunk has to
reach as far. -/
theorem unmarshalForwardTsnStreams_end {buf : Bytes} {stop offset remaining : ℕ}
    {streams : List ChunkForwardTsnStream} (hle : offset ≤ stop)
    (hrem : offset + remaining = buf.length)
    (h : unmarshalForwardTsnStreams buf stop offset remaining = .ok streams) :
    offset + forwardTsnStreamLength * streams.length = buf.length ∧ buf.length ≤ stop := by
  induction offset, remaining using unmarshalForwardTsnStreams.induct generalizing streams with
  | case1 offset remaining more ih =>
    rw [unmarshalForwardTsnStreams, if_pos more] at h
    obtain ⟨rawStream, hslice, h⟩ := bind_eq_ok.mp h
    obtain ⟨s, hs, h⟩ := bind_eq_ok.mp h
    have hlen := (Bytes.slice_eq_ok hslice).2
    have hlong : forwardTsnStreamLength ≤ rawStream.length := by
      unfold unmarshalForwardTsnStream at hs
      split at hs
      · cases hs
      · rename_i hlong
        exact Nat.not_lt.mp hlong
    split at h
    · cases h
    · rename_i hfour
      obtain ⟨streams', hstreams, h⟩ := bind_eq_ok.mp h
      have hrest := ih (by omega) (by omega) hstreams
      cases h
      rw [List.length_cons, Nat.mul_succ]
      omega
  | case2 offset remaining more =>
    rw [unmarshalForwardTsnStreams, if_neg more] at h
    cases h
    rw [List.length_nil]
    omega

/-- A FORWARD TSN is as long as its header says. -/
theorem unmarshalForwardTsn_advance {raw : Bytes} {c : Chunk}
    (h : unmarshalForwardTsn raw = .ok c) : Packet.advance c = padded (lengthField raw) := by
  obtain ⟨header, hh, h⟩ := bind_eq_ok.mp h
  have hstop := (ChunkHeader.unmarshal_eq_ok hh).2
  split at h
  · cases h
  · dsimp only at h
    split at h
    · cases h
    · rename_i hlen
      obtain ⟨reader, hvalue, h⟩ := bind_eq_ok.mp h
      obtain ⟨⟨_, _⟩, h1, h⟩ := bind_eq_ok.mp h
      obtain ⟨streams, hstreams, h⟩ := bind_eq_ok.mp h
      have hfour := (Bytes.getU32_eq_ok h1).1
      rw [(Bytes.slice_eq_ok hvalue).2] at hfour
      have hend := unmarshalForwardTsnStreams_end
        (by unfold newCumulativeTsnLength; omega) (by omega) hstreams
      cases h
      rw [Packet.advance_eq, lengthField_eq hh, Nat.le_antisymm hstop hend.2, ← hend.1,
        Nat.add_assoc]
      rfl

/-- So is a SHUTDOWN. -/
theorem unmarshalShutdown_advance {raw : Bytes} {c : Chunk}
    (h : unmarshalShutdown raw = .ok c) : Packet.advance c = padded (lengthField raw) := by
  obtain ⟨header, hh, h⟩ := bind_eq_ok.mp h
  have hstop := (ChunkHeader.unmarshal_eq_ok hh).2
  split at h
  · cases h
  · split at h
    · cases h
    · rename_i hlen
      obtain ⟨reader, hvalue, h⟩ := bind_eq_ok.mp h
      obtain ⟨⟨_, _⟩, h1, h⟩ := bind_eq_ok.mp h
      have hfour := (Bytes.getU32_eq_ok h1).1
      rw [(Bytes.slice_eq_ok hvalue).2] at hfour
      cases h
      have heq : header.stop = chunkHeaderSize + cumulativeTsnAckLength := by
        unfold cumulativeTsnAckLength at *
        omega
      rw [Packet.advance_eq, lengthField_eq hh, heq]
      rfl

/-- What holds of the decoder of each type, under that type, holds of the one
`Packet::unmarshal` chooses. -/
theorem unmarshal_rule {P : ChunkType → Outcome Error Chunk → Prop} {raw : Bytes}
    (init : P ctInit (unmarshalInit raw)) (initAck : P ctInitAck (unmarshalInit raw))
    (abort : P ctAbort (unmarshalAbort raw)) (cookieEcho : P ctCookieEcho (unmarshalCookieEcho raw))
    (cookieAck : P ctCookieAck (unmarshalCookieAck raw))
    (heartbeat : P ctHeartbeat (unmarshalHeartbeat raw))
    (payloadData : P ctPayloadData (unmarshalPayloadData raw))
    (sack : P ctSack (unmarshalSelectiveAck raw)) (reconfig : P ctReconfig (unmarshalReconfig raw))
    (forwardTsn : P ctForwardTsn (unmarshalForwardTsn raw))
    (error : P ctError (unmarshalError raw)) (shutdown : P ctShutdown (unmarshalShutdown raw))
    (shutdownAck : P ctShutdownAck (unmarshalShutdownAck raw))
    (shutdownComplete : P ctShutdownComplete (unmarshalShutdownComplete raw))
    (other : ∀ ct, ct ∉ [ctInit, ctInitAck, ctSack, ctHeartbeat, ctReconfig, ctCookieAck,
      ctShutdownAck, ctShutdownComplete] → P ct (unmarshalUnknown raw)) (ct : ChunkType) :
    P ct (Chunk.unmarshal ct raw) := by
  unfold Chunk.unmarshal
  -- in the order in which the source compares them
  by_cases h1 : ct = ctInit
  · rw [if_pos h1, h1]
    exact init
  rw [if_neg h1]
  by_cases h2 : ct = ctInitAck
  · rw [if_pos h2, h2]
    exact initAck
  rw [if_neg h2]
  by_cases h3 : ct = ctAbort
  · rw [if_pos h3, h3]
    exact abort
  rw [if_neg h3]
  by_cases h4 : ct = ctCookieEcho
  · rw [if_pos h4, h4]
    exact cookieEcho
  rw [if_neg h4]
  by_cases h5 : ct = ctCookieAck
  · rw [if_pos h5, h5]
    exact cookieAck
  rw [if_neg h5]
  by_cases h6 : ct = ctHeartbeat
  · rw [if_pos h6, h6]
    exact heartbeat
  rw [if_neg h6]
  by_cases h7 : ct = ctPayloadData
  · rw [if_pos h7, h7]
    exact payloadData
  rw [if_neg h7]
  by_cases h8 : ct = ctSack
  · rw [if_pos h8, h8]
    exact sack
  rw [if_neg h8]
  by_cases h9 : ct = ctReconfig
  · rw [if_pos h9, h9]
    exact reconfig
  rw [if_neg h9]
  by_cases h10 : ct = ctForwardTsn
  · rw [if_pos h10, h10]
    exact forwardTsn
  rw [if_neg h10]
  by_cases h11 : ct = ctError
  · rw [if_pos h11, h11]
    exact error
  rw [if_neg h11]
  by_cases h12 : ct = ctShutdown
  · rw [if_pos h12, h12]
    exact shutdown
  rw [if_neg h12]
  by_cases h13 : ct = ctShutdownAck
  · rw [if_pos h13, h13]
    exact shutdownAck
  rw [if_neg h13]
  by_cases h14 : ct = ctShutdownComplete
  · rw [if_pos h14, h14]
    exact shutdownComplete
  rw [if_neg h14]
  -- the types named in `other` have been compared
  apply other
  simp only [List.mem_cons, List.not_mem_nil, or_false, not_or]
  exact ⟨h1, h2, h8, h6, h9, h5, h13, h14⟩

/-- Every decoder begins with the chunk header. -/
theorem exists_header {ct : ChunkType} {raw : Bytes} {c : Chunk}
    (h : Chunk.unmarshal ct raw = .ok c) :
    ∃ header, ChunkHeader.unmarshal raw = .ok header := by
  have hbind {f : ChunkHeader → Outcome Error Chunk}
      (h : (ChunkHeader.unmarshal raw >>= f) = .ok c) :
      ∃ header, ChunkHeader.unmarshal raw = .ok header :=
    (bind_eq_ok.mp h).imp fun _ hh => hh.1
  revert h
  exact unmarshal_rule (P := fun _ x => x = .ok c → _) hbind hbind hbind hbind hbind hbind hbind
    hbind hbind hbind hbind hbind hbind hbind (fun _ _ => hbind) ct

/-- The chunks that are whole whenever they decode. -/
theorem whole_of_other {ct : ChunkType} {raw : Bytes} (hct : raw[0]? = some ct)
    (h : ct ∉ [ctInit, ctInitAck, ctSack, ctHeartbeat, ctReconfig, ctCookieAck, ctShutdownAck,
      ctShutdownComplete]) : Whole raw := by
  simp only [List.mem_cons, List.not_mem_nil, or_false, not_or] at h
  obtain ⟨hinit, hinitAck, hsack, hheartbeat, hreconfig, hack, hshutAck, hcomplete⟩ := h
  unfold Whole
  rw [hct]
  dsimp only
  rw [if_neg (not_or.mpr ⟨hinit, hinitAck⟩), if_neg hsack, if_neg hheartbeat,
    if_neg hreconfig, if_neg (not_or.mpr ⟨hack, not_or.mpr ⟨hshutAck, hcomplete⟩⟩)]
  trivial

/-- Rounding up reaches a multiple of four that is no further than the length only from the
multiple itself. -/
theorem eq_padded_iff {n len : ℕ} (hmod : n % 4 = 0) (hle : n ≤ len) :
    n = padded len ↔ len = n := by
  have hle' := le_padded len
  constructor
  · omega
  · intro h
    rw [h, padded_of_mod hmod]

theorem whole_iff_of_empty {ct : ChunkType} {raw : Bytes} {header : ChunkHeader}
    (hct : raw[0]? = some ct) (hh : ChunkHeader.unmarshal raw = .ok header)
    (h : ct ∈ [ctCookieAck, ctShutdownAck, ctShutdownComplete]) :
    chunkHeaderSize = padded (lengthField raw) ↔ Whole raw := by
  have hge : chunkHeaderSize ≤ lengthField raw := by
    rw [lengthField_eq hh]
    exact Nat.le_add_right _ _
  rw [eq_padded_iff (by decide) hge]
  unfold Whole
  rw [hct]
  simp only [List.mem_cons, List.not_mem_nil, or_false] at h
  rcases h with rfl | rfl | rfl <;> rfl

/-- **A chunk is whole exactly when the chunk loop moves on by its length field**, in a place
where a chunk header or the end of the packet follows. -/
theorem advance_eq_iff {ct : ChunkType} {raw : Bytes} {c : Chunk} (hct : raw[0]? = some ct)
    (h : Chunk.unmarshal ct raw = .ok c)
    (hend : Packet.advance c = raw.length ∨
      Packet.advance c + chunkHeaderSize ≤ raw.length) :
    Packet.advance c = padded (lengthField raw) ↔ Whole raw := by
  obtain ⟨header, hh⟩ := exists_header h
  -- three ways of being whole are shared by several types
  have init {ct : ChunkType} (hct : raw[0]? = some ct) (htyp : ct = ctInit ∨ ct = ctInitAck)
      (h : unmarshalInit raw = .ok c) :
      Packet.advance c = padded (lengthField raw) ↔ Whole raw := by
    rw [unmarshalInit_advance h, eq_comm]
    unfold Whole
    rw [hct]
    dsimp only
    rw [if_pos htyp]
  have empty {ct : ChunkType} (htyp : ct ∈ [ctCookieAck, ctShutdownAck, ctShutdownComplete])
      (hct : raw[0]? = some ct) (h : Packet.advance c = chunkHeaderSize) :
      Packet.advance c = padded (lengthField raw) ↔ Whole raw := by
    rw [h]
    exact whole_iff_of_empty hct hh htyp
  have all {ct : ChunkType} (hct : raw[0]? = some ct)
      (htyp : ct ∉ [ctInit, ctInitAck, ctSack, ctHeartbeat, ctReconfig, ctCookieAck,
        ctShutdownAck, ctShutdownComplete])
      (h : Packet.advance c = padded (lengthField raw)) :
      Packet.advance c = padded (lengthField raw) ↔ Whole raw :=
    iff_of_true h (whole_of_other hct htyp)
  revert hct h
  refine unmarshal_rule (P := fun ct x => raw[0]? = some ct → x = .ok c → _)
    ?init ?initAck ?abort ?cookieEcho ?cookieAck ?heartbeat ?payloadData ?sack ?reconfig
    ?forwardTsn ?error ?shutdown ?shutdownAck ?shutdownComplete ?other ct
  case init => exact fun hct h => init hct (.inl rfl) h
  case initAck => exact fun hct h => init hct (.inr rfl) h
  case abort => exact fun hct h => all hct (by decide) (errorCauses_advance (fun _ => rfl) h hend)
  case cookieEcho => exact fun hct h => all hct (by decide) (unmarshalCookieEcho_advance h)
  case cookieAck => exact fun hct h => empty (by decide) hct (header_advance rfl h)
  case heartbeat =>
    intro hct h
    rw [unmarshalHeartbeat_advance h, eq_comm]
    unfold Whole
    rw [hct]
    rfl
  case payloadData => exact fun hct h => all hct (by decide) (unmarshalPayloadData_advance h)
  case sack =>
    intro hct h
    obtain ⟨hadvance, hle⟩ := unmarshalSelectiveAck_advance h
    have hmod : Packet.advance c % 4 = 0 := by
      rw [Packet.advance_eq]
      exact padded_mod _
    rw [eq_padded_iff hmod hle, hadvance]
    unfold Whole
    rw [hct]
    rfl
  case reconfig =>
    intro hct h
    rw [unmarshalReconfig_advance h, eq_comm]
    unfold Whole
    rw [hct]
    rfl
  case forwardTsn => exact fun hct h => all hct (by decide) (unmarshalForwardTsn_advance h)
  case error => exact fun hct h => all hct (by decide) (errorCauses_advance (fun _ => rfl) h hend)
  case shutdown => exact fun hct h => all hct (by decide) (unmarshalShutdown_advance h)
  case shutdownAck => exact fun hct h => empty (by decide) hct (header_advance rfl h)
  case shutdownComplete => exact fun hct h => empty (by decide) hct (header_advance rfl h)
  case other => exact fun ct htyp hct h => all hct htyp (unmarshalUnknown_advance h)

end Chunk

end Sctp
