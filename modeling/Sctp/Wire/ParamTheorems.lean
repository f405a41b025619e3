import Sctp.Wire.Param

/-!
# The parameter decoders never panic
-/

namespace Sctp

open Outcome

/-- The value a decoded parameter header declares lies inside the bytes it was read from. -/
theorem ParamHeader.unmarshal_eq_ok {raw : Bytes} {header : ParamHeader}
    (h : ParamHeader.unmarshal raw = .ok header) :
    paramHeaderLength + header.valueLength.toNat ≤ raw.length := by
  unfold ParamHeader.unmarshal at h
  split at h
  · cases h
  · obtain ⟨⟨typ, reader⟩, -, h⟩ := bind_eq_ok.mp h
    obtain ⟨⟨len, _⟩, -, h⟩ := bind_eq_ok.mp h
    dsimp only at h
    split at h
    · cases h
    · rename_i hlen
      cases h
      have hlt := len.isLt
      simp only [paramHeaderLength, BitVec.toNat_ofNat] at *
      omega

theorem ParamHeader.unmarshal_returns (raw : Bytes) : (ParamHeader.unmarshal raw).Returns := by
  unfold ParamHeader.unmarshal
  split
  · exact returns_err _
  · rename_i hlen
    simp only [paramHeaderLength, Nat.not_lt] at hlen
    apply Bytes.getU16_bind_returns (by omega)
    intro typ reader hl
    apply Bytes.getU16_bind_returns (by omega)
    intro len _ _
    dsimp only
    split
    · exact returns_err _
    · exact returns_ok _

/-- A decoder that reads the header and then the value comes back when what it does with a
value of the declared length does. -/
theorem ParamHeader.value_bind_returns {α : Type} {raw : Bytes} {header : ParamHeader}
    (h : ParamHeader.unmarshal raw = .ok header) {f : Bytes → Outcome Error α}
    (hf : ∀ value, value.length = header.valueLength.toNat → (f value).Returns) :
    (header.value raw >>= f).Returns := by
  have hle := ParamHeader.unmarshal_eq_ok h
  refine returns_bind.mpr ⟨?_, ?_⟩
  · unfold ParamHeader.value
    rw [Bytes.slice_returns_iff]
    omega
  · intro value hv
    have hl := (Bytes.slice_eq_ok hv).2
    apply hf
    omega

namespace Param

theorem readHmacAlgorithms_returns (valueLength offset : ℕ) (reader : Bytes)
    (algorithms : List HmacAlgorithm) (h : valueLength ≤ offset + reader.length) :
    (readHmacAlgorithms valueLength offset reader algorithms).Returns := by
  induction offset, reader, algorithms using readHmacAlgorithms.induct valueLength with
  | case1 offset reader algorithms hlt ih =>
    rw [readHmacAlgorithms, if_pos hlt]
    apply Bytes.getU16_bind_returns (by omega)
    intro v reader' hl
    dsimp only
    split
    · exact ih _ _ (by omega)
    · exact returns_err _
  | case2 offset reader algorithms hlt =>
    rw [readHmacAlgorithms, if_neg hlt]
    exact returns_ok _

theorem readU16s_returns (n : ℕ) (reader : Bytes) (h : 2 * n ≤ reader.length) :
    (readU16s n reader).Returns := by
  induction n generalizing reader with
  | zero => exact returns_ok _
  | succ n ih =>
    unfold readU16s
    apply Bytes.getU16_bind_returns (by omega)
    intro v reader' hl
    refine returns_bind.mpr ⟨ih reader' (by omega), ?_⟩
    intro vs _
    exact returns_ok _

/-- The decoders that take the whole value as it is. -/
theorem value_returns {raw : Bytes} (mk : ParamHeader → Bytes → Param) :
    (do
      let header ← ParamHeader.unmarshal raw
      let value ← header.value raw
      .ok (mk header value) : Outcome Error Param).Returns := by
  refine returns_bind.mpr ⟨ParamHeader.unmarshal_returns raw, ?_⟩
  intro header h
  exact ParamHeader.value_bind_returns h fun value _ => returns_ok _

theorem unmarshalForwardTsnSupported_returns (raw : Bytes) :
    (unmarshalForwardTsnSupported raw).Returns :=
  returns_bind.mpr ⟨ParamHeader.unmarshal_returns raw, fun _ _ => returns_ok _⟩

theorem unmarshalRequestedHmacAlgorithm_returns (raw : Bytes) :
    (unmarshalRequestedHmacAlgorithm raw).Returns := by
  refine returns_bind.mpr ⟨ParamHeader.unmarshal_returns raw, ?_⟩
  intro header h
  apply ParamHeader.value_bind_returns h
  intro reader hl
  refine returns_bind.mpr ⟨readHmacAlgorithms_returns _ 0 reader [] (by omega), ?_⟩
  intro algorithms _
  exact returns_ok _

theorem unmarshalChunkList_returns (raw : Bytes) : (unmarshalChunkList raw).Returns := by
  refine returns_bind.mpr ⟨ParamHeader.unmarshal_returns raw, ?_⟩
  intro header h
  split
  · exact returns_err _
  · exact ParamHeader.value_bind_returns h fun value _ => returns_ok _

theorem unmarshalOutgoingResetRequest_returns (raw : Bytes) :
    (unmarshalOutgoingResetRequest raw).Returns := by
  refine returns_bind.mpr ⟨ParamHeader.unmarshal_returns raw, ?_⟩
  intro header h
  dsimp only
  split
  · exact returns_err _
  · rename_i hlen
    apply ParamHeader.value_bind_returns h
    intro reader hl
    simp only [paramOutgoingResetRequestStreamIdentifiersOffset, Nat.not_lt] at hlen ⊢
    apply Bytes.getU32_bind_returns (by omega)
    intro _ reader1 hl1
    dsimp only
    apply Bytes.getU32_bind_returns (by omega)
    intro _ reader2 hl2
    dsimp only
    apply Bytes.getU32_bind_returns (by omega)
    intro _ reader3 hl3
    dsimp only
    refine returns_bind.mpr ⟨readU16s_returns _ reader3 (by omega), ?_⟩
    intro identifiers _
    exact returns_ok _

theorem unmarshalReconfigResponse_returns (raw : Bytes) :
    (unmarshalReconfigResponse raw).Returns := by
  refine returns_bind.mpr ⟨ParamHeader.unmarshal_returns raw, ?_⟩
  intro header h
  split
  · exact returns_err _
  · apply ParamHeader.value_bind_returns h
    intro reader hl
    apply Bytes.getU32_bind_returns (by omega)
    intro _ reader1 hl1
    dsimp only
    apply Bytes.getU32_bind_returns (by omega)
    intro _ _ _
    exact returns_ok _

end Param

theorem buildParam_returns (rawParam : Bytes) : (buildParam rawParam).Returns := by
  unfold buildParam
  split
  · exact returns_err _
  · rename_i hlen
    simp only [paramHeaderLength, Nat.not_lt] at hlen
    refine returns_bind.mpr ⟨Bytes.slice_returns_iff.mpr (by omega), ?_⟩
    intro reader hr
    have hl := (Bytes.slice_eq_ok hr).2
    apply Bytes.getU16_bind_returns (by omega)
    intro rawType _ _
    dsimp only
    split
    · exact Param.unmarshalForwardTsnSupported_returns rawParam
    · exact Param.value_returns fun _ => .supportedExtensions
    · exact Param.value_returns fun _ => .random
    · exact Param.unmarshalRequestedHmacAlgorithm_returns rawParam
    · exact Param.unmarshalChunkList_returns rawParam
    · exact Param.value_returns fun _ => .stateCookie
    · exact Param.value_returns fun _ => .heartbeatInfo
    · exact Param.unmarshalOutgoingResetRequest_returns rawParam
    · exact Param.unmarshalReconfigResponse_returns rawParam
    · split
      · exact returns_err _
      · exact Param.value_returns fun header => .unknown header.typ.toU16

end Sctp
