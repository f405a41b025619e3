import Sctp.Wire.RoundTrip

/-!
# Parameters come back as they were written

A parameter is followed in its buffer by padding or by the next parameter; its decoder stops
where its length field says.
-/

namespace Sctp

open Outcome Bytes

theorem ParamType.toU16_ofU16 (v : U16) : (ParamType.ofU16 v).toU16 = v := by
  unfold ParamType.ofU16
  split
  all_goals first | rfl | skip
  all_goals exact (BitVec.eq_of_toNat_eq (by assumption)).symm

@[simp] theorem ParamHeader.length_marshal (h : ParamHeader) : h.marshal.length = 4 := rfl

namespace Param

theorem length_marshalValue (p : Param) : p.marshalValue.length = p.valueLength := by
  induction p with
  | unrecognized p ih =>
    show (p.header.marshal ++ p.marshalValue).length = p.valueLength + paramHeaderLength
    rw [List.length_append, ih, ParamHeader.length_marshal, Nat.add_comm]
    rfl
  | requestedHmacAlgorithm algorithms =>
    simp [marshalValue, valueLength, Nat.mul_comm]
  | outgoingResetRequest p =>
    simp [marshalValue, valueLength, paramOutgoingResetRequestStreamIdentifiersOffset]
    omega
  | _ => rfl

theorem length_marshal (p : Param) : p.marshal.length = paramHeaderLength + p.valueLength := by
  unfold marshal
  rw [List.length_append, length_marshalValue]
  rfl

end Param

/-- The header of a parameter is read back, its type through the table of types. -/
theorem ParamHeader.unmarshal_marshal {p : Param} (hlen : paramHeaderLength + p.valueLength ≤ 65535)
    (tail : Bytes) :
    ParamHeader.unmarshal (p.marshal ++ tail) =
      .ok { typ := ParamType.ofU16 p.typ.toU16, valueLength := BitVec.ofNat 16 p.valueLength } := by
  have hraw : p.marshal ++ tail = putU16 p.typ.toU16 ++
      (putU16 (BitVec.ofNat 16 p.valueLength + BitVec.ofNat 16 paramHeaderLength) ++
        (p.marshalValue ++ tail)) := by
    unfold Param.marshal ParamHeader.marshal Param.header
    simp only [List.append_assoc]
  have htotal : (p.marshal ++ tail).length = paramHeaderLength + p.valueLength + tail.length := by
    rw [List.length_append, p.length_marshal]
  have hsum : (BitVec.ofNat 16 p.valueLength + BitVec.ofNat 16 paramHeaderLength).toNat =
      paramHeaderLength + p.valueLength := by
    unfold paramHeaderLength at hlen ⊢
    rw [← BitVec.ofNat_add, BitVec.toNat_ofNat]
    omega
  unfold ParamHeader.unmarshal
  rw [if_neg (by omega)]
  rw [hraw, getU16_putU16, ok_bind]
  dsimp only
  rw [getU16_putU16, ok_bind]
  dsimp only
  rw [← hraw, if_neg (by omega), hsum, Nat.add_sub_cancel_left]

/-- What the header declares is what was written behind it. -/
theorem ParamHeader.value_marshal {p : Param} (hlen : paramHeaderLength + p.valueLength ≤ 65535)
    (typ : ParamType) (tail : Bytes) :
    ParamHeader.value { typ, valueLength := BitVec.ofNat 16 p.valueLength } (p.marshal ++ tail) =
      .ok p.marshalValue := by
  unfold ParamHeader.value Param.marshal
  rw [List.append_assoc]
  refine slice_append rfl ?_
  unfold paramHeaderLength at hlen
  rw [p.length_marshalValue, BitVec.toNat_ofNat, Nat.mod_eq_of_lt (by omega)]

namespace Param

theorem unmarshalValue_marshal {p : Param} (hlen : paramHeaderLength + p.valueLength ≤ 65535)
    (tail : Bytes) (mk : ParamHeader → Bytes → Param) :
    (do
      let header ← ParamHeader.unmarshal (p.marshal ++ tail)
      let value ← header.value (p.marshal ++ tail)
      .ok (mk header value)) =
      Outcome.ok (mk ⟨ParamType.ofU16 p.typ.toU16, BitVec.ofNat 16 p.valueLength⟩
        p.marshalValue) := by
  rw [ParamHeader.unmarshal_marshal hlen, ok_bind, ParamHeader.value_marshal hlen, ok_bind]

/-! ## Lists of numbers -/

theorem readU16s_flatMap (vs : List U16) (rest : Bytes) :
    readU16s vs.length (vs.flatMap putU16 ++ rest) = .ok vs := by
  induction vs with
  | nil => rfl
  | cons v vs ih =>
    rw [List.length_cons, List.flatMap_cons, List.append_assoc, readU16s, getU16_putU16, ok_bind]
    dsimp only
    rw [ih, ok_bind]

/-- The algorithms are read back up to the first one that is refused. -/
theorem readHmacAlgorithms_flatMap {algorithms done : List HmacAlgorithm} {valueLength offset : ℕ}
    (hlen : valueLength = offset + 2 * algorithms.length) :
    readHmacAlgorithms valueLength offset (algorithms.flatMap fun a => putU16 a.toU16) done =
      if ∀ a ∈ algorithms, a = .hmacSha128 ∨ a = .hmacSha256 then .ok (done ++ algorithms)
      else .err .errInvalidAlgorithmType := by
  induction algorithms generalizing offset done with
  | nil =>
    rw [readHmacAlgorithms, if_neg (by simp at hlen; omega), if_pos (by simp), List.append_nil]
  | cons a algorithms ih =>
    rw [List.length_cons] at hlen
    have hback : HmacAlgorithm.ofU16 a.toU16 = a := by cases a <;> rfl
    rw [readHmacAlgorithms, if_pos (by omega), List.flatMap_cons, getU16_putU16, ok_bind]
    dsimp only
    rw [hback]
    by_cases ha : a = .hmacSha128 ∨ a = .hmacSha256
    · rw [if_pos ha, ih (by omega), List.append_assoc]
      simp only [List.forall_mem_cons, ha, true_and, List.singleton_append]
    · rw [if_neg ha, if_neg fun h => ha (h a List.mem_cons_self)]

/-! ## Every kind -/

theorem unmarshalRequestedHmacAlgorithm_marshal {algorithms : List HmacAlgorithm}
    (hlen : paramHeaderLength + (requestedHmacAlgorithm algorithms).valueLength ≤ 65535)
    (tail : Bytes) :
    unmarshalRequestedHmacAlgorithm ((requestedHmacAlgorithm algorithms).marshal ++ tail) =
      if ∀ a ∈ algorithms, a = .hmacSha128 ∨ a = .hmacSha256 then
        .ok (requestedHmacAlgorithm algorithms)
      else .err .errInvalidAlgorithmType := by
  unfold unmarshalRequestedHmacAlgorithm
  rw [ParamHeader.unmarshal_marshal hlen, ok_bind, ParamHeader.value_marshal hlen, ok_bind]
  have hvalue : (BitVec.ofNat 16 (requestedHmacAlgorithm algorithms).valueLength).toNat =
      0 + 2 * algorithms.length := by
    unfold paramHeaderLength at hlen
    rw [BitVec.toNat_ofNat, Nat.mod_eq_of_lt (by omega)]
    show 2 * algorithms.length = _
    omega
  dsimp only
  show (readHmacAlgorithms _ 0 (algorithms.flatMap fun a => putU16 a.toU16) [] >>= _) = _
  rw [readHmacAlgorithms_flatMap hvalue]
  split_ifs
  · rfl
  · rfl

theorem unmarshalOutgoingResetRequest_marshal {r : ParamOutgoingResetRequest}
    (hlen : paramHeaderLength + (outgoingResetRequest r).valueLength ≤ 65535) (tail : Bytes) :
    unmarshalOutgoingResetRequest ((outgoingResetRequest r).marshal ++ tail) =
      .ok (outgoingResetRequest r) := by
  have hvalue : (BitVec.ofNat 16 (outgoingResetRequest r).valueLength).toNat =
      12 + r.streamIdentifiers.length * 2 := by
    unfold paramHeaderLength at hlen
    rw [BitVec.toNat_ofNat, Nat.mod_eq_of_lt (by omega)]
    rfl
  unfold unmarshalOutgoingResetRequest
  rw [ParamHeader.unmarshal_marshal hlen, ok_bind]
  dsimp only
  rw [hvalue, if_neg (by unfold paramOutgoingResetRequestStreamIdentifiersOffset; omega),
    ParamHeader.value_marshal hlen, ok_bind]
  unfold marshalValue
  rw [getU32_putU32, ok_bind]
  dsimp only
  rw [getU32_putU32, ok_bind]
  dsimp only
  rw [getU32_putU32, ok_bind]
  dsimp only
  have hcount : (12 + r.streamIdentifiers.length * 2 -
      paramOutgoingResetRequestStreamIdentifiersOffset) / 2 = r.streamIdentifiers.length := by
    unfold paramOutgoingResetRequestStreamIdentifiersOffset
    omega
  have hread := readU16s_flatMap r.streamIdentifiers []
  rw [List.append_nil] at hread
  rw [hcount, hread, ok_bind]

theorem unmarshalReconfigResponse_marshal {r : ParamReconfigResponse}
    (hlen : paramHeaderLength + (reconfigResponse r).valueLength ≤ 65535) (tail : Bytes) :
    unmarshalReconfigResponse ((reconfigResponse r).marshal ++ tail) = .ok (reconfigResponse r) := by
  have hback : ReconfigResult.ofU32 r.result.toU32 = r.result := by cases r.result <;> rfl
  have hread := @getU32_putU32 Error r.result.toU32 []
  rw [List.append_nil] at hread
  unfold unmarshalReconfigResponse
  rw [ParamHeader.unmarshal_marshal hlen, ok_bind]
  dsimp only
  rw [if_neg (by show ¬ 8 < 8; omega), ParamHeader.value_marshal hlen, ok_bind]
  unfold marshalValue
  rw [getU32_putU32, ok_bind]
  dsimp only
  rw [hread, ok_bind]
  dsimp only
  rw [hback]

end Param

open Param in
/-- **A parameter comes back** from its bytes, whatever follows them, unless it asks for an
algorithm that its decoder refuses. -/
theorem buildParam_marshal_iff {p : Param} (hp : p.WellFormed)
    (hlen : paramHeaderLength + p.valueLength ≤ 65535) (tail : Bytes) :
    buildParam (p.marshal ++ tail) = .ok p ↔ p.KnownAlgorithms := by
  -- the type is read first, and it chooses the decoder
  have htotal : ¬ (p.marshal ++ tail).length < paramHeaderLength := by
    rw [List.length_append, p.length_marshal]
    omega
  have hhead : ((p.marshal ++ tail).slice 0 2 : Outcome Error Bytes) = .ok (putU16 p.typ.toU16) := by
    unfold marshal ParamHeader.marshal
    rw [List.append_assoc, List.append_assoc]
    exact @slice_append Error [] (putU16 p.typ.toU16) _ 0 2 rfl rfl
  have hread := @getU16_putU16 Error p.typ.toU16 []
  rw [List.append_nil] at hread
  unfold buildParam
  rw [if_neg htotal, hhead, ok_bind, hread, ok_bind]
  dsimp only
  cases p with
  | heartbeatInfo info =>
    exact iff_of_true (unmarshalValue_marshal hlen tail fun _ v => heartbeatInfo v) trivial
  | stateCookie cookie =>
    exact iff_of_true (unmarshalValue_marshal hlen tail fun _ v => stateCookie v) trivial
  | random data => exact iff_of_true (unmarshalValue_marshal hlen tail fun _ v => random v) trivial
  | chunkList types =>
    refine iff_of_true ?_ trivial
    show unmarshalChunkList _ = _
    unfold unmarshalChunkList
    have htyp : ParamType.ofU16 (chunkList types).typ.toU16 = .chunkList := rfl
    rw [ParamHeader.unmarshal_marshal hlen, ok_bind]
    dsimp only
    rw [if_neg (not_not_intro htyp), ParamHeader.value_marshal hlen, ok_bind]
    rfl
  | supportedExtensions types =>
    exact iff_of_true (unmarshalValue_marshal hlen tail fun _ v => supportedExtensions v) trivial
  | requestedHmacAlgorithm algorithms =>
    show unmarshalRequestedHmacAlgorithm _ = _ ↔ _
    rw [unmarshalRequestedHmacAlgorithm_marshal hlen]
    unfold KnownAlgorithms
    -- the only decoder that refuses what its encoder writes
    split_ifs with h
    · exact iff_of_true rfl h
    · exact iff_of_false nofun h
  | outgoingResetRequest r =>
    exact iff_of_true (unmarshalOutgoingResetRequest_marshal hlen tail) trivial
  | reconfigResponse r => exact iff_of_true (unmarshalReconfigResponse_marshal hlen tail) trivial
  | forwardTsnSupported =>
    refine iff_of_true ?_ trivial
    show unmarshalForwardTsnSupported _ = _
    unfold unmarshalForwardTsnSupported
    rw [ParamHeader.unmarshal_marshal hlen, ok_bind]
  | unknown typ value =>
    refine iff_of_true ?_ trivial
    have hunknown : unmarshalUnknown ((unknown typ value).marshal ++ tail) = .ok (unknown typ value) := by
      refine (unmarshalValue_marshal hlen tail fun h v => unknown h.typ.toU16 v).trans ?_
      show Outcome.ok (unknown (ParamType.ofU16 typ).toU16 value) = _
      rw [ParamType.toU16_ofU16]
    -- a type that is known has a decoder of its own
    obtain ⟨hkind, hskip⟩ := hp
    have htyp : (unknown typ value).typ.toU16 = typ := rfl
    rw [htyp]
    split
    all_goals first | (rename_i h; rw [h] at hkind; exact absurd hkind nofun) | skip
    rw [if_neg hskip]
    exact hunknown
  | unrecognized p => exact absurd hp id

/-- What is written as an Unrecognized Parameter is refused by the reader of the same code. -/
theorem buildParam_unrecognized (p : Param) (tail : Bytes) :
    buildParam ((Param.unrecognized p).marshal ++ tail) = .err (.errParamTypeUnhandled 8) := by
  have htotal : ¬ ((Param.unrecognized p).marshal ++ tail).length < paramHeaderLength := by
    rw [List.length_append, Param.length_marshal]
    omega
  have hhead : (((Param.unrecognized p).marshal ++ tail).slice 0 2 : Outcome Error Bytes) =
      .ok (putU16 8) := by
    unfold Param.marshal ParamHeader.marshal
    rw [List.append_assoc, List.append_assoc]
    exact @slice_append Error [] (putU16 8) _ 0 2 rfl rfl
  unfold buildParam
  rw [if_neg htotal, hhead, ok_bind]
  rfl

/-- **Parameters come back in place**: whatever bytes follow a parameter of a kind that is
decoded, it is read back from its own, and they are its value and four bytes more. -/
theorem buildParam_marshal {p : Param} (hp : p.WellFormed) (halgorithms : p.KnownAlgorithms)
    (hlen : p.marshal.length ≤ 65535) (tail : Bytes) :
    buildParam (p.marshal ++ tail) = .ok p ∧
      p.valueLength + paramHeaderLength = p.marshal.length := by
  have htotal := p.length_marshal
  refine ⟨(buildParam_marshal_iff hp (by omega) tail).mpr halgorithms, ?_⟩
  omega

/-- A type of the address extension, which is in the table of types but has no decoder, in
front of another parameter. -/
theorem buildParam_marshal_addIpAddr :
    let p := Param.unknown 49153 [10, 0, 0]
    (p.WellFormed ∧ p.KnownAlgorithms ∧ p.marshal.length ≤ 65535) ∧
      buildParam (p.marshal ++ [0, 192, 0, 0, 4]) = .ok p ∧
        p.valueLength + paramHeaderLength = p.marshal.length := by
  have hwell : (Param.unknown 49153 [10, 0, 0]).WellFormed := ⟨by decide, by decide⟩
  have halgorithms : (Param.unknown 49153 [10, 0, 0]).KnownAlgorithms := trivial
  have hlen : (Param.unknown 49153 [10, 0, 0]).marshal.length ≤ 65535 := by decide
  exact ⟨⟨hwell, halgorithms, hlen⟩, buildParam_marshal hwell halgorithms hlen [0, 192, 0, 0, 4]⟩

end Sctp
