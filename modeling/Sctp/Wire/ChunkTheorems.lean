import Sctp.Wire.Chunk
import Sctp.Wire.ParamTheorems

/-!
# Which chunks make their decoder panic

All decoders but three come back on every input. `Chunk.Malformed` says what the other
three panic on; each of them trusts one length where another one decides.
-/

namespace Sctp

open Outcome

namespace Chunk

/-- Where the parameter loop of an INIT that ends at `stop` comes to stand when it starts
at `offset`. -/
inductive ParamStart (raw : Bytes) (stop : ℕ) : ℕ → ℕ → Prop
  | here (offset : ℕ) : ParamStart raw stop offset offset
  | next {offset o : ℕ} {p : Param} (more : offset + initOptionalVarHeaderLength < raw.length)
      (decoded : buildParam ((raw.take stop).drop offset) = .ok p)
      (rest : ParamStart raw stop
        (offset + (paramHeaderLength + p.valueLength +
          getPaddingSize (paramHeaderLength + p.valueLength))) o) :
      ParamStart raw stop offset o

/-- An INIT or INIT ACK whose padded parameters lead past its end, with more than a
parameter header left in the packet. -/
structure InitOverruns (raw : Bytes) (header : ChunkHeader) : Prop where
  typ : header.typ = ctInit ∨ header.typ = ctInitAck
  long : initChunkMinLength ≤ header.valueLength.toNat
  flags : header.flags = 0
  walk : ∃ o, ParamStart raw header.stop (chunkHeaderSize + initChunkMinLength) o ∧
    o + initOptionalVarHeaderLength < raw.length ∧ header.stop < o

/-- A FORWARD TSN that declares less than its cumulative TSN, with the bytes for one left in
the packet. -/
structure ForwardTsnTooShort (raw : Bytes) (header : ChunkHeader) : Prop where
  typ : header.typ = ctForwardTsn
  enough : chunkHeaderSize + newCumulativeTsnLength ≤ raw.length
  short : header.valueLength.toNat < newCumulativeTsnLength

/-- A SHUTDOWN at the end of the packet that declares less than its cumulative TSN. -/
structure ShutdownTooShort (raw : Bytes) (header : ChunkHeader) : Prop where
  typ : header.typ = ctShutdown
  exact : raw.length = chunkHeaderSize + cumulativeTsnAckLength
  short : header.valueLength.toNat < cumulativeTsnAckLength

/-- The chunks whose decoder panics. -/
def Malformed (raw : Bytes) : Prop :=
  ∃ header, ChunkHeader.unmarshal raw = .ok header ∧
    (InitOverruns raw header ∨ ForwardTsnTooShort raw header ∨ ShutdownTooShort raw header)

end Chunk

/-! ## The chunk header -/

/-- The padding that is tested lies in the buffer. -/
theorem ChunkHeader.checkPadding_returns (raw : Bytes) (valueLength i : ℕ)
    (h : chunkHeaderSize + valueLength + i ≤ raw.length) :
    (ChunkHeader.checkPadding raw valueLength i).Returns := by
  induction i with
  | zero => exact returns_ok _
  | succ i ih =>
    unfold ChunkHeader.checkPadding
    refine returns_bind.mpr ⟨Bytes.index_returns_iff.mpr (by omega), ?_⟩
    intro b _
    split
    · exact returns_err _
    · exact ih (by omega)

/-- Reading a header never panics. -/
theorem ChunkHeader.unmarshal_returns (raw : Bytes) : (ChunkHeader.unmarshal raw).Returns := by
  unfold ChunkHeader.unmarshal
  split
  · exact returns_err _
  · rename_i hlen
    simp only [chunkHeaderSize, Nat.not_lt] at hlen
    refine returns_bind.mpr ⟨Bytes.getU8_returns_iff.mpr (by omega), ?_⟩
    intro ⟨typ, reader1⟩ h1
    have hl1 := Bytes.getU8_eq_ok h1
    subst hl1
    simp only [List.length_cons] at hlen
    refine returns_bind.mpr ⟨Bytes.getU8_returns_iff.mpr (by omega), ?_⟩
    intro ⟨flags, reader2⟩ h2
    have hl2 := Bytes.getU8_eq_ok h2
    subst hl2
    simp only [List.length_cons] at hlen
    apply Bytes.getU16_bind_returns (by omega)
    intro length _ _
    dsimp only
    split
    · exact returns_err _
    · split
      · exact returns_err _
      · split
        · refine returns_bind.mpr ⟨ChunkHeader.checkPadding_returns _ _ _ ?_, ?_⟩
          · simp only [chunkHeaderSize] at *
            omega
          · intro _ _
            exact returns_ok _
        · exact returns_ok _

/-- A chunk header that decodes gives the type at the head of the bytes, and ends the chunk
inside them. -/
theorem ChunkHeader.unmarshal_eq_ok {raw : Bytes} {header : ChunkHeader}
    (h : ChunkHeader.unmarshal raw = .ok header) :
    raw[0]? = some header.typ ∧ header.stop ≤ raw.length := by
  unfold ChunkHeader.unmarshal at h
  split at h
  · cases h
  · obtain ⟨⟨typ, reader1⟩, h1, h⟩ := bind_eq_ok.mp h
    obtain ⟨⟨flags, reader2⟩, -, h⟩ := bind_eq_ok.mp h
    obtain ⟨⟨length, _⟩, -, h⟩ := bind_eq_ok.mp h
    dsimp only at h
    have htyp : raw[0]? = some typ := by
      rw [Bytes.getU8_eq_ok h1, List.getElem?_cons_zero]
    split at h
    · cases h
    · rename_i hge
      split at h
      · cases h
      · rename_i hle
        have hstop : chunkHeaderSize + (length - BitVec.ofNat 16 chunkHeaderSize).toNat ≤
            raw.length := by
          have hlt := length.isLt
          simp only [chunkHeaderSize, BitVec.toNat_sub, BitVec.toNat_ofNat] at *
          omega
        split at h
        · obtain ⟨_, -, h⟩ := bind_eq_ok.mp h
          cases h
          exact ⟨htyp, hstop⟩
        · cases h
          exact ⟨htyp, hstop⟩

/-- A header that was read has its value in the buffer. -/
theorem ChunkHeader.exists_value {raw : Bytes} {header : ChunkHeader}
    (h : ChunkHeader.unmarshal raw = .ok header) :
    ∃ value, header.value raw = .ok value ∧ value.length = header.valueLength.toNat := by
  have hstop := (ChunkHeader.unmarshal_eq_ok h).2
  refine ⟨(raw.take header.stop).drop chunkHeaderSize, if_pos ⟨Nat.le_add_right _ _, hstop⟩, ?_⟩
  simp only [List.length_drop, List.length_take, ChunkHeader.stop] at *
  omega

/-- A decoder that takes the value the header declares comes back when what it does with a
value of that length does. -/
theorem ChunkHeader.value_bind_returns {α : Type} {raw : Bytes} {header : ChunkHeader}
    (h : ChunkHeader.unmarshal raw = .ok header) {f : Bytes → Outcome Error α}
    (hf : ∀ value, value.length = header.valueLength.toNat → (f value).Returns) :
    (header.value raw >>= f).Returns := by
  obtain ⟨value, hvalue, hl⟩ := ChunkHeader.exists_value h
  rw [hvalue, ok_bind]
  exact hf value hl

/-- Reading an error cause never panics. -/
theorem ErrorCause.unmarshal_returns (buf : Bytes) : (ErrorCause.unmarshal buf).Returns := by
  unfold ErrorCause.unmarshal
  split
  · exact returns_err _
  · rename_i hlen
    simp only [errorCauseHeaderLength, Nat.not_lt] at hlen
    apply Bytes.getU16_bind_returns (by omega)
    intro code reader hl
    apply Bytes.getU16_bind_returns (by omega)
    intro len _ _
    dsimp only
    split
    · exact returns_err _
    · split
      · exact returns_err _
      · refine returns_bind.mpr ⟨Bytes.slice_returns_iff.mpr ?_, ?_⟩
        · simp only [errorCauseHeaderLength] at *
          omega
        · intro raw _
          exact returns_ok _

/-- An error cause takes at most the bytes it is read from. -/
theorem ErrorCause.length_le {buf : Bytes} {e : ErrorCause}
    (h : ErrorCause.unmarshal buf = .ok e) : e.length ≤ buf.length := by
  unfold ErrorCause.unmarshal at h
  split at h
  · cases h
  · obtain ⟨⟨code, reader⟩, -, h⟩ := bind_eq_ok.mp h
    obtain ⟨⟨len, _⟩, -, h⟩ := bind_eq_ok.mp h
    dsimp only at h
    split at h
    · cases h
    · split at h
      · cases h
      · obtain ⟨raw, hraw, h⟩ := bind_eq_ok.mp h
        have hl := (Bytes.slice_eq_ok hraw).2
        cases h
        simp only [ErrorCause.length, errorCauseHeaderLength] at *
        omega

namespace Chunk

/-! ## The decoders that always come back -/

/-- Nor does reading a list of them. -/
theorem unmarshalErrorCauses_returns (raw : Bytes) (stop offset : ℕ) (h : offset ≤ stop)
    (h' : stop ≤ raw.length) : (unmarshalErrorCauses raw stop offset).Returns := by
  induction offset using unmarshalErrorCauses.induct raw with
  | case1 offset more ih =>
    rw [unmarshalErrorCauses, if_pos more]
    refine returns_bind.mpr ⟨Bytes.slice_returns_iff.mpr ⟨h, h'⟩, ?_⟩
    intro rawCause hr
    have hl := (Bytes.slice_eq_ok hr).2
    refine returns_bind.mpr ⟨ErrorCause.unmarshal_returns rawCause, ?_⟩
    intro e he
    have hle := ErrorCause.length_le he
    refine returns_bind.mpr ⟨ih e (by omega), ?_⟩
    intro causes _
    exact returns_ok _
  | case2 offset more =>
    rw [unmarshalErrorCauses, if_neg more]
    exact returns_ok _

/-- The decoders of the chunks that carry error causes. -/
theorem errorCauses_returns (raw : Bytes) (ct : ChunkType) (e : Error)
    (chunk : List ErrorCause → Chunk) :
    (do
      let header ← ChunkHeader.unmarshal raw
      if header.typ ≠ ct then
        .err e
      else
        let errorCauses ← unmarshalErrorCauses raw header.stop chunkHeaderSize
        .ok (chunk errorCauses) : Outcome Error Chunk).Returns := by
  refine returns_bind.mpr ⟨ChunkHeader.unmarshal_returns raw, ?_⟩
  intro header h
  split
  · exact returns_err _
  · refine returns_bind.mpr ⟨unmarshalErrorCauses_returns raw _ _ (Nat.le_add_right _ _)
      (ChunkHeader.unmarshal_eq_ok h).2, ?_⟩
    intro causes _
    exact returns_ok _

/-- Reading a COOKIE ECHO never panics. -/
theorem unmarshalCookieEcho_returns (raw : Bytes) : (unmarshalCookieEcho raw).Returns := by
  refine returns_bind.mpr ⟨ChunkHeader.unmarshal_returns raw, ?_⟩
  intro header h
  split
  · exact returns_err _
  · exact ChunkHeader.value_bind_returns h fun cookie _ => returns_ok _

/-- The decoders of the chunks without a value. -/
theorem header_returns (raw : Bytes) (ct : ChunkType) (e : Error) (c : Chunk) :
    (do
      let header ← ChunkHeader.unmarshal raw
      if header.typ ≠ ct then
        .err e
      else
        .ok c : Outcome Error Chunk).Returns := by
  refine returns_bind.mpr ⟨ChunkHeader.unmarshal_returns raw, ?_⟩
  intro header _
  split
  · exact returns_err _
  · exact returns_ok _

/-- Reading a HEARTBEAT never panics. -/
theorem unmarshalHeartbeat_returns (raw : Bytes) : (unmarshalHeartbeat raw).Returns := by
  refine returns_bind.mpr ⟨ChunkHeader.unmarshal_returns raw, ?_⟩
  intro header h
  split
  · exact returns_err _
  · split
    · exact returns_err _
    · apply ChunkHeader.value_bind_returns h
      intro rawParam _
      refine returns_bind.mpr ⟨buildParam_returns rawParam, ?_⟩
      intro p _
      split
      · exact returns_err _
      · exact returns_ok _

/-- Reading a DATA chunk never panics. -/
theorem unmarshalPayloadData_returns (raw : Bytes) : (unmarshalPayloadData raw).Returns := by
  refine returns_bind.mpr ⟨ChunkHeader.unmarshal_returns raw, ?_⟩
  intro header h
  have hstop := (ChunkHeader.unmarshal_eq_ok h).2
  split
  · exact returns_err _
  · split
    · exact returns_err _
    · rename_i hlen
      simp only [payloadDataHeaderSize, ChunkHeader.stop, chunkHeaderSize, Nat.not_lt] at *
      apply ChunkHeader.value_bind_returns h
      intro reader hl
      apply Bytes.getU32_bind_returns (by omega)
      intro tsn reader1 hl1
      dsimp only
      apply Bytes.getU16_bind_returns (by omega)
      intro streamIdentifier reader2 hl2
      dsimp only
      apply Bytes.getU16_bind_returns (by omega)
      intro streamSequenceNumber reader3 hl3
      dsimp only
      apply Bytes.getU32_bind_returns (by omega)
      intro ppi _ _
      refine returns_bind.mpr ⟨Bytes.slice_returns_iff.mpr (by omega), ?_⟩
      intro userData _
      exact returns_ok _

/-- Blocks that fit in the buffer are read. -/
theorem readGapAckBlocks_returns (n : ℕ) (reader : Bytes) (h : 4 * n ≤ reader.length) :
    ∃ blocks rest, readGapAckBlocks n reader = .ok (blocks, rest) ∧
      rest.length + 4 * n = reader.length := by
  induction n generalizing reader with
  | zero => exact ⟨[], reader, rfl, rfl⟩
  | succ n ih =>
    match reader, h with
    | b0 :: b1 :: b2 :: b3 :: reader, h =>
      simp only [List.length_cons] at h
      obtain ⟨blocks, rest, hr, hl⟩ := ih reader (by omega)
      refine ⟨{ start := b0 ++ b1, end_ := b2 ++ b3 } :: blocks, rest, ?_, ?_⟩
      · simp [readGapAckBlocks, Bytes.getU16, hr]
      · simp only [List.length_cons]
        omega

/-- TSNs that fit in the buffer are read. -/
theorem readDuplicateTsn_returns (n : ℕ) (reader : Bytes) (h : 4 * n ≤ reader.length) :
    (readDuplicateTsn n reader).Returns := by
  induction n generalizing reader with
  | zero => exact returns_ok _
  | succ n ih =>
    unfold readDuplicateTsn
    apply Bytes.getU32_bind_returns (by omega)
    intro t rest hl
    refine returns_bind.mpr ⟨ih rest (by omega), ?_⟩
    intro ts _
    exact returns_ok _

/-- Reading a SACK never panics: the counts are tested against the length. -/
theorem unmarshalSelectiveAck_returns (raw : Bytes) : (unmarshalSelectiveAck raw).Returns := by
  refine returns_bind.mpr ⟨ChunkHeader.unmarshal_returns raw, ?_⟩
  intro header h
  dsimp only
  split
  · exact returns_err _
  · split
    · exact returns_err _
    · rename_i hlen
      have hlen' : 12 ≤ header.valueLength.toNat := Nat.not_lt.mp hlen
      apply ChunkHeader.value_bind_returns h
      intro reader hl
      apply Bytes.getU32_bind_returns (by omega)
      intro cumulativeTsnAck reader1 hl1
      dsimp only
      apply Bytes.getU32_bind_returns (by omega)
      intro advertisedReceiverWindowCredit reader2 hl2
      dsimp only
      apply Bytes.getU16_bind_returns (by omega)
      intro gapAckBlocksLen reader3 hl3
      dsimp only
      apply Bytes.getU16_bind_returns (by omega)
      intro duplicateTsnLen reader4 hl4
      dsimp only
      by_cases hn : header.valueLength.toNat <
          selectiveAckHeaderSize + (4 * gapAckBlocksLen.toNat + 4 * duplicateTsnLen.toNat)
      · rw [if_pos hn]
        exact returns_err _
      · rw [if_neg hn]
        unfold selectiveAckHeaderSize at hn
        obtain ⟨blocks, rest, hr, hrl⟩ :=
          readGapAckBlocks_returns gapAckBlocksLen.toNat reader4 (by omega)
        rw [hr, ok_bind]
        refine returns_bind.mpr ⟨readDuplicateTsn_returns _ rest (by omega), ?_⟩
        intro duplicateTsn _
        exact returns_ok _

/-- Reading a RECONFIG never panics. -/
theorem unmarshalReconfig_returns (raw : Bytes) : (unmarshalReconfig raw).Returns := by
  refine returns_bind.mpr ⟨ChunkHeader.unmarshal_returns raw, ?_⟩
  intro header h
  split
  · exact returns_err _
  · apply ChunkHeader.value_bind_returns h
    intro rawParam _
    refine returns_bind.mpr ⟨buildParam_returns rawParam, ?_⟩
    intro paramA _
    dsimp only
    split
    · rename_i hoff
      refine returns_bind.mpr ⟨Bytes.slice_returns_iff.mpr
        ⟨Nat.le_of_lt hoff, (ChunkHeader.unmarshal_eq_ok h).2⟩, ?_⟩
      intro rawParam' _
      refine returns_bind.mpr ⟨buildParam_returns rawParam', ?_⟩
      intro paramB _
      exact returns_ok _
    · exact returns_ok _

/-- Reading an unknown chunk never panics. -/
theorem unmarshalUnknown_returns (raw : Bytes) : (unmarshalUnknown raw).Returns := by
  refine returns_bind.mpr ⟨ChunkHeader.unmarshal_returns raw, ?_⟩
  intro header h
  exact ChunkHeader.value_bind_returns h fun value _ => returns_ok _

/-! ## The three that may panic -/

/-- The parameter loop comes back when no parameter starts beyond the end of the chunk. -/
theorem unmarshalInitParams_returns_iff (raw : Bytes) (stop offset : ℕ) (remaining : ℤ)
    (hstop : stop ≤ raw.length) (hrem : remaining = raw.length - offset) :
    (unmarshalInitParams raw stop offset remaining).Returns ↔
      ∀ o, ParamStart raw stop offset o → o + initOptionalVarHeaderLength < raw.length →
        o ≤ stop := by
  induction offset, remaining using unmarshalInitParams.induct with
  | case1 offset remaining more ih =>
    rw [unmarshalInitParams, if_pos more]
    have hmore : offset + initOptionalVarHeaderLength < raw.length := by omega
    rw [returns_bind, Bytes.slice_returns_iff]
    constructor
    · intro ⟨⟨hle, _⟩, hrest⟩ o walk
      have hslice : (raw.slice offset stop : Outcome Error Bytes) =
          .ok ((raw.take stop).drop offset) := if_pos ⟨hle, hstop⟩
      have hrest := (returns_bind.mp (hrest _ hslice)).2
      cases walk with
      | here => exact fun _ => hle
      | next _ decoded rest =>
        have hrest := (returns_bind.mp (hrest _ decoded)).1
        exact (ih _ (by push_cast; omega)).mp hrest o rest
    · intro hall
      refine ⟨⟨hall offset (.here _) hmore, hstop⟩, ?_⟩
      intro rawParam hr
      rw [(Bytes.slice_eq_ok hr).1]
      refine returns_bind.mpr ⟨buildParam_returns _, ?_⟩
      intro p decoded
      refine returns_bind.mpr ⟨?_, fun _ _ => returns_ok _⟩
      exact (ih p (by push_cast; omega)).mpr fun o walk =>
        hall o (.next hmore decoded walk)
  | case2 offset remaining more =>
    rw [unmarshalInitParams, if_neg more]
    have hdone : ¬ offset + initOptionalVarHeaderLength < raw.length := by omega
    refine iff_of_true (returns_ok _) ?_
    intro o walk hmore
    cases walk with
    | here => exact absurd hmore hdone
    | next hmore' => exact absurd hmore' hdone

/-- What an INIT decoder reads ahead of the parameters is there once the length check has
passed. -/
theorem unmarshalInit_eq_of_long {raw : Bytes} {header : ChunkHeader}
    (hh : ChunkHeader.unmarshal raw = .ok header)
    (htyp : header.typ = ctInit ∨ header.typ = ctInitAck)
    (hlong : initChunkMinLength ≤ header.valueLength.toNat) (hflags : header.flags = 0) :
    ∃ mk : List Param → Chunk, unmarshalInit raw =
      (do
        let params ← unmarshalInitParams raw header.stop (chunkHeaderSize + initChunkMinLength)
          (raw.length - (chunkHeaderSize + initChunkMinLength : ℕ))
        .ok (mk params)) := by
  have hlong' : 16 ≤ header.valueLength.toNat := hlong
  obtain ⟨reader, hvalue, hl⟩ := ChunkHeader.exists_value hh
  obtain ⟨initiateTag, reader1, h1, hl1⟩ := @Bytes.exists_getU32 Error reader (by omega)
  obtain ⟨credit, reader2, h2, hl2⟩ := @Bytes.exists_getU32 Error reader1 (by omega)
  obtain ⟨outbound, reader3, h3, hl3⟩ := @Bytes.exists_getU16 Error reader2 (by omega)
  obtain ⟨inbound, reader4, h4, hl4⟩ := @Bytes.exists_getU16 Error reader3 (by omega)
  obtain ⟨initialTsn, reader5, h5, -⟩ := @Bytes.exists_getU32 Error reader4 (by omega)
  unfold unmarshalInit
  rw [hh, ok_bind, if_neg (not_not_intro htyp), if_neg (Nat.not_lt.mpr hlong),
    if_neg (not_not_intro hflags)]
  simp only [hvalue, h1, h2, h3, h4, h5, ok_bind]
  exact ⟨_, rfl⟩

/-- **Reading an INIT panics exactly if a parameter overruns the buffer**. -/
theorem unmarshalInit_returns_iff {raw : Bytes} {header : ChunkHeader}
    (hh : ChunkHeader.unmarshal raw = .ok header) :
    (unmarshalInit raw).Returns ↔ ¬ InitOverruns raw header := by
  by_cases hread : (header.typ = ctInit ∨ header.typ = ctInitAck) ∧
      initChunkMinLength ≤ header.valueLength.toNat ∧ header.flags = 0
  · obtain ⟨htyp, hlong, hflags⟩ := hread
    obtain ⟨mk, heq⟩ := unmarshalInit_eq_of_long hh htyp hlong hflags
    have hparams := unmarshalInitParams_returns_iff raw header.stop
      (chunkHeaderSize + initChunkMinLength) _ (ChunkHeader.unmarshal_eq_ok hh).2 rfl
    rw [heq, returns_bind, hparams]
    constructor
    · intro ⟨hall, _⟩ hm
      obtain ⟨o, walk, more, beyond⟩ := hm.walk
      exact absurd (hall o walk more) (Nat.not_le.mpr beyond)
    · intro hm
      refine ⟨?_, fun _ _ => returns_ok _⟩
      intro o walk more
      by_contra beyond
      exact hm ⟨htyp, hlong, hflags, o, walk, more, Nat.not_le.mp beyond⟩
  · refine iff_of_true ?_ fun hm => hread ⟨hm.typ, hm.long, hm.flags⟩
    unfold unmarshalInit
    rw [hh, ok_bind]
    by_cases htyp : header.typ = ctInit ∨ header.typ = ctInitAck
    · rw [if_neg (not_not_intro htyp)]
      by_cases hlong : initChunkMinLength ≤ header.valueLength.toNat
      · rw [if_neg (Nat.not_lt.mpr hlong), if_pos fun hflags => hread ⟨htyp, hlong, hflags⟩]
        exact returns_err _
      · rw [if_pos (Nat.not_le.mp hlong)]
        exact returns_err _
    · rw [if_pos htyp]
      exact returns_err _

/-- The stream loop comes back whenever it starts inside the chunk: it leaves the chunk
only through the error of a stream that is too short. -/
theorem unmarshalForwardTsnStreams_returns (buf : Bytes) (stop offset remaining : ℕ)
    (h : offset ≤ stop) (hstop : stop ≤ buf.length) (hrem : remaining = buf.length - offset) :
    (unmarshalForwardTsnStreams buf stop offset remaining).Returns := by
  induction offset, remaining using unmarshalForwardTsnStreams.induct with
  | case1 offset remaining more ih =>
    rw [unmarshalForwardTsnStreams, if_pos more]
    refine returns_bind.mpr ⟨Bytes.slice_returns_iff.mpr ⟨h, hstop⟩, ?_⟩
    intro rawStream hr
    have hl := (Bytes.slice_eq_ok hr).2
    unfold unmarshalForwardTsnStream
    by_cases hshort : rawStream.length < forwardTsnStreamLength
    · rw [if_pos hshort]
      exact returns_err _
    · rw [if_neg hshort]
      have hlong : 4 ≤ rawStream.length := Nat.not_lt.mp hshort
      have hrem4 : ¬ remaining < forwardTsnStreamLength := by
        unfold forwardTsnStreamLength
        omega
      obtain ⟨identifier, reader1, h1, hl1⟩ := @Bytes.exists_getU16 Error rawStream (by omega)
      obtain ⟨sequence, reader2, h2, -⟩ := @Bytes.exists_getU16 Error reader1 (by omega)
      simp only [h1, h2, ok_bind, if_neg hrem4]
      unfold forwardTsnStreamLength at ih ⊢
      refine returns_bind.mpr ⟨ih (by omega) (by omega), ?_⟩
      intro streams _
      exact returns_ok _
  | case2 offset remaining more =>
    rw [unmarshalForwardTsnStreams, if_neg more]
    exact returns_ok _

/-- **Reading a FORWARD TSN panics exactly if its value is too short**. -/
theorem unmarshalForwardTsn_returns_iff {raw : Bytes} {header : ChunkHeader}
    (hh : ChunkHeader.unmarshal raw = .ok header) :
    (unmarshalForwardTsn raw).Returns ↔ ¬ ForwardTsnTooShort raw header := by
  have hstop := (ChunkHeader.unmarshal_eq_ok hh).2
  obtain ⟨reader, hvalue, hl⟩ := ChunkHeader.exists_value hh
  unfold unmarshalForwardTsn
  rw [hh, ok_bind]
  by_cases htyp : header.typ = ctForwardTsn
  · rw [if_neg (not_not_intro htyp)]
    dsimp only
    by_cases hlen : raw.length < chunkHeaderSize + newCumulativeTsnLength
    · rw [if_pos hlen]
      exact iff_of_true (returns_err _) fun hm => Nat.not_le.mpr hlen hm.enough
    · rw [if_neg hlen, hvalue, ok_bind]
      constructor
      · intro hret hm
        have h4 := Bytes.getU32_returns_iff.mp (returns_bind.mp hret).1
        have hshort := hm.short
        unfold newCumulativeTsnLength at hshort
        omega
      · intro hm
        have h4 : newCumulativeTsnLength ≤ header.valueLength.toNat := by
          by_contra hshort
          exact hm ⟨htyp, Nat.not_lt.mp hlen, Nat.not_le.mp hshort⟩
        apply Bytes.getU32_bind_returns (by rw [hl]; exact h4)
        intro newCumulativeTsn _ _
        refine returns_bind.mpr ⟨?_, fun _ _ => returns_ok _⟩
        exact unmarshalForwardTsnStreams_returns raw _ _ _ (Nat.add_le_add_left h4 _) hstop rfl
  · rw [if_pos htyp]
    exact iff_of_true (returns_err _) fun hm => htyp hm.typ

/-- **Reading a SHUTDOWN panics exactly if its value is too short**. -/
theorem unmarshalShutdown_returns_iff {raw : Bytes} {header : ChunkHeader}
    (hh : ChunkHeader.unmarshal raw = .ok header) :
    (unmarshalShutdown raw).Returns ↔ ¬ ShutdownTooShort raw header := by
  obtain ⟨reader, hvalue, hl⟩ := ChunkHeader.exists_value hh
  unfold unmarshalShutdown
  rw [hh, ok_bind]
  by_cases htyp : header.typ = ctShutdown
  · rw [if_neg (not_not_intro htyp)]
    by_cases hlen : raw.length = chunkHeaderSize + cumulativeTsnAckLength
    · rw [if_neg (not_not_intro hlen), hvalue, ok_bind]
      constructor
      · intro hret hm
        have h4 := Bytes.getU32_returns_iff.mp (returns_bind.mp hret).1
        have hshort := hm.short
        unfold cumulativeTsnAckLength at hshort
        omega
      · intro hm
        have h4 : cumulativeTsnAckLength ≤ header.valueLength.toNat := by
          by_contra hshort
          exact hm ⟨htyp, hlen, Nat.not_le.mp hshort⟩
        apply Bytes.getU32_bind_returns (by rw [hl]; exact h4)
        intro cumulativeTsnAck _ _
        exact returns_ok _
    · rw [if_pos hlen]
      exact iff_of_true (returns_err _) fun hm => hlen hm.exact
  · rw [if_pos htyp]
    exact iff_of_true (returns_err _) fun hm => htyp hm.typ

/-- A chunk is malformed in one of these three ways. -/
theorem malformed_iff {raw : Bytes} {header : ChunkHeader}
    (hh : ChunkHeader.unmarshal raw = .ok header) :
    Malformed raw ↔
      InitOverruns raw header ∨ ForwardTsnTooShort raw header ∨ ShutdownTooShort raw header := by
  constructor
  · intro ⟨header', hh', hm⟩
    rw [hh] at hh'
    cases hh'
    exact hm
  · intro hm
    exact ⟨header, hh, hm⟩

/-- A decoder that begins with the header comes back on the chunks that are not malformed
when it does so under the header's own type. -/
theorem header_bind_returns_iff {raw : Bytes} {ct : ChunkType} (hct : raw[0]? = some ct)
    {f : ChunkHeader → Outcome Error Chunk}
    (hf : ∀ header, ChunkHeader.unmarshal raw = .ok header → header.typ = ct →
      ((ChunkHeader.unmarshal raw >>= f).Returns ↔
        ¬ (InitOverruns raw header ∨ ForwardTsnTooShort raw header ∨
          ShutdownTooShort raw header))) :
    (ChunkHeader.unmarshal raw >>= f).Returns ↔ ¬ Malformed raw := by
  by_cases hdec : ∃ header, ChunkHeader.unmarshal raw = .ok header
  · obtain ⟨header, hh⟩ := hdec
    have htyp := (ChunkHeader.unmarshal_eq_ok hh).1
    rw [hct, Option.some_inj] at htyp
    rw [malformed_iff hh]
    exact hf header hh htyp.symm
  · refine iff_of_true ?_ fun ⟨header, hh, _⟩ => hdec ⟨header, hh⟩
    exact returns_bind.mpr
      ⟨ChunkHeader.unmarshal_returns raw, fun header hh => absurd ⟨header, hh⟩ hdec⟩

/-- A chunk of any other type is not malformed. -/
theorem not_malformed {raw : Bytes} {ct : ChunkType} (hct : raw[0]? = some ct)
    (h : ct ≠ ctInit ∧ ct ≠ ctInitAck ∧ ct ≠ ctForwardTsn ∧ ct ≠ ctShutdown) :
    ¬ Malformed raw := by
  intro ⟨header, hh, hm⟩
  have htyp := (ChunkHeader.unmarshal_eq_ok hh).1
  rw [hct, Option.some_inj] at htyp
  subst htyp
  rcases hm with hm | hm | hm
  · rcases hm.typ with ht | ht
    · exact h.1 ht
    · exact h.2.1 ht
  · exact h.2.2.1 hm.typ
  · exact h.2.2.2 hm.typ

/-- The decoders of the other types all come back. -/
theorem unmarshal_returns_of_other (ct : ChunkType) (raw : Bytes)
    (h : ct ≠ ctInit ∧ ct ≠ ctInitAck ∧ ct ≠ ctForwardTsn ∧ ct ≠ ctShutdown) :
    (Chunk.unmarshal ct raw).Returns := by
  unfold Chunk.unmarshal
  rw [if_neg h.1, if_neg h.2.1, if_neg h.2.2.1, if_neg h.2.2.2]
  split_ifs
  · exact errorCauses_returns raw _ _ _
  · exact unmarshalCookieEcho_returns raw
  · exact header_returns raw ctCookieAck .errChunkTypeNotCookieAck .cookieAck
  · exact unmarshalHeartbeat_returns raw
  · exact unmarshalPayloadData_returns raw
  · exact unmarshalSelectiveAck_returns raw
  · exact unmarshalReconfig_returns raw
  · exact errorCauses_returns raw _ _ _
  · exact header_returns raw ctShutdownAck .errChunkTypeNotShutdownAck .shutdownAck
  · exact header_returns raw ctShutdownComplete .errChunkTypeNotShutdownComplete .shutdownComplete
  · exact unmarshalUnknown_returns raw

/-- The decoders come back on all chunks but the malformed ones. -/
theorem unmarshal_returns_iff {ct : ChunkType} {raw : Bytes} (hct : raw[0]? = some ct) :
    (Chunk.unmarshal ct raw).Returns ↔ ¬ Malformed raw := by
  by_cases hinit : ct = ctInit ∨ ct = ctInitAck
  · have hdec : Chunk.unmarshal ct raw = unmarshalInit raw := by
      rcases hinit with rfl | rfl <;> rfl
    rw [hdec]
    refine header_bind_returns_iff hct fun header hh htyp => ?_
    refine (unmarshalInit_returns_iff hh).trans (not_congr ⟨Or.inl, ?_⟩)
    rintro (hm | hm | hm)
    · exact hm
    · rcases hinit with rfl | rfl <;> exact absurd (htyp.symm.trans hm.typ) (by decide)
    · rcases hinit with rfl | rfl <;> exact absurd (htyp.symm.trans hm.typ) (by decide)
  · by_cases hforward : ct = ctForwardTsn
    · subst hforward
      refine header_bind_returns_iff hct fun header hh htyp => ?_
      refine (unmarshalForwardTsn_returns_iff hh).trans
        (not_congr ⟨fun hm => Or.inr (Or.inl hm), ?_⟩)
      rintro (hm | hm | hm)
      · rcases hm.typ with ht | ht <;> exact absurd (htyp.symm.trans ht) (by decide)
      · exact hm
      · exact absurd (htyp.symm.trans hm.typ) (by decide)
    · by_cases hshutdown : ct = ctShutdown
      · subst hshutdown
        refine header_bind_returns_iff hct fun header hh htyp => ?_
        refine (unmarshalShutdown_returns_iff hh).trans
          (not_congr ⟨fun hm => Or.inr (Or.inr hm), ?_⟩)
        rintro (hm | hm | hm)
        · rcases hm.typ with ht | ht <;> exact absurd (htyp.symm.trans ht) (by decide)
        · exact absurd (htyp.symm.trans hm.typ) (by decide)
        · exact hm
      · have hother : ct ≠ ctInit ∧ ct ≠ ctInitAck ∧ ct ≠ ctForwardTsn ∧ ct ≠ ctShutdown :=
          ⟨fun h => hinit (Or.inl h), fun h => hinit (Or.inr h), hforward, hshutdown⟩
        exact iff_of_true (unmarshal_returns_of_other ct raw hother) (not_malformed hct hother)

end Chunk

end Sctp
