import Sctp.Wire.ParamRoundTripTheorems

/-!
# Chunks come back as they were written

A chunk is followed in its packet by padding and by the chunks behind it. Its decoder is
given all of that, so what it makes of the chunk may depend on what follows.
-/

namespace Sctp

open Outcome Bytes

/-- What may follow a chunk: less than a chunk header is padding. -/
def PaddingOrMore (tail : Bytes) : Prop := tail.length < 4 → ∀ b ∈ tail, b = 0

theorem paddingOrMore_zeros (n : ℕ) : PaddingOrMore (zeros n) :=
  fun _ _ hb => eq_zero_of_mem_zeros hb

theorem paddingOrMore_of_le {tail : Bytes} (h : 4 ≤ tail.length) : PaddingOrMore tail :=
  fun hlt => absurd h (by omega)

@[simp] theorem ChunkHeader.length_marshal (h : ChunkHeader) : h.marshal.length = 4 := rfl

/-- Zeros after the value pass for padding. -/
theorem ChunkHeader.checkPadding_of_zeros {pre tail : Bytes} {valueLength i : ℕ}
    (hpre : pre.length = chunkHeaderSize + valueLength) (hi : i ≤ tail.length)
    (hzero : ∀ b ∈ tail, b = 0) :
    ChunkHeader.checkPadding (pre ++ tail) valueLength i = .ok () := by
  induction i with
  | zero => rfl
  | succ i ih =>
    have hindex : ((pre ++ tail).index (chunkHeaderSize + (valueLength + (i + 1) - 1)) :
        Outcome Error Byte) = .ok 0 := by
      have hat : (pre ++ tail)[chunkHeaderSize + (valueLength + (i + 1) - 1)]? = some (tail[i]) := by
        rw [List.getElem?_append_right (by omega)]
        rw [show chunkHeaderSize + (valueLength + (i + 1) - 1) - pre.length = i by omega]
        exact List.getElem?_eq_getElem (by omega)
      unfold Bytes.index
      rw [hat]
      exact congrArg Outcome.ok (hzero _ (List.getElem_mem _))
    rw [ChunkHeader.checkPadding, hindex, ok_bind, if_neg (not_not_intro rfl)]
    exact ih (by omega)

/-- The header of a chunk is read back. -/
theorem ChunkHeader.unmarshal_marshal {h : ChunkHeader} {body tail : Bytes}
    (hvalue : h.valueLength.toNat = body.length) (hlen : chunkHeaderSize + body.length ≤ 65535)
    (htail : PaddingOrMore tail) :
    ChunkHeader.unmarshal (h.marshal ++ (body ++ tail)) = .ok h := by
  have hsum : (h.valueLength + BitVec.ofNat 16 chunkHeaderSize).toNat =
      chunkHeaderSize + body.length := by
    have hfour : (BitVec.ofNat 16 chunkHeaderSize).toNat = chunkHeaderSize := rfl
    rw [BitVec.toNat_add, hvalue, hfour, Nat.mod_eq_of_lt (by omega), Nat.add_comm]
  have hback : h.valueLength + BitVec.ofNat 16 chunkHeaderSize - BitVec.ofNat 16 chunkHeaderSize =
      h.valueLength := BitVec.add_sub_cancel ..
  have htotal : (h.marshal ++ (body ++ tail)).length =
      chunkHeaderSize + body.length + tail.length := by
    rw [List.length_append, List.length_append, ChunkHeader.length_marshal, ← Nat.add_assoc]
    rfl
  have hraw : h.marshal ++ (body ++ tail) = h.typ :: h.flags ::
      (putU16 (h.valueLength + BitVec.ofNat 16 chunkHeaderSize) ++ (body ++ tail)) := rfl
  unfold ChunkHeader.unmarshal
  rw [if_neg (by omega)]
  generalize hbuf : h.marshal ++ (body ++ tail) = buf at hraw htotal ⊢
  rw [hraw]
  simp only [getU8, ok_bind, getU16_putU16]
  rw [← hraw, htotal, hsum, if_neg (by omega), if_neg (by omega), Nat.add_sub_cancel_left,
    Nat.add_sub_cancel_left, hback]
  split_ifs with hshort
  · rw [← hbuf, ← List.append_assoc, ChunkHeader.checkPadding_of_zeros _ (Nat.le_refl _) (htail hshort),
      ok_bind]
    rw [List.length_append, ChunkHeader.length_marshal]
    rfl
  · rfl

namespace Chunk

/-! ## Lengths -/

/-- Parameters marshal to the length they report. -/
theorem length_marshalParams (ps : List Param) : (marshalParams ps).length = paramsLength ps := by
  induction ps using marshalParams.induct with
  | case1 => rfl
  | case2 p => exact p.length_marshal
  | case3 p ps hne ih =>
    cases ps with
    | nil => exact absurd rfl hne
    | cons q ps =>
      rw [marshalParams, paramsLength, List.length_append, List.length_append, ih, length_zeros,
        p.length_marshal]
      · exact nofun
      · exact nofun

/-- So do error causes. -/
theorem length_errorCauses (errorCauses : List ErrorCause) :
    (errorCauses.flatMap ErrorCause.marshal).length = (errorCauses.map ErrorCause.length).sum := by
  rw [List.length_flatMap]
  rfl

/-- An encoder writes as many bytes as the chunk says. -/
theorem length_marshalValue {c : Chunk} {body : Bytes} (h : c.marshalValue = .ok body) :
    body.length = c.valueLength := by
  cases c with
  | init c =>
    cases h
    simp [length_marshalParams, valueLength]
    omega
  | abort errorCauses =>
    cases h
    exact length_errorCauses errorCauses
  | error errorCauses =>
    cases h
    exact length_errorCauses errorCauses
  | heartbeat params =>
    cases h
    rw [List.length_flatMap]
    exact congrArg List.sum (List.map_congr_left fun p _ => p.length_marshal)
  | heartbeatAck params =>
    have h' : marshalHeartbeatAckValue params = .ok body := h
    -- the encoder takes one parameter, of one type
    unfold marshalHeartbeatAckValue at h'
    split at h'
    · split_ifs at h'
      cases h'
      exact length_marshalParams _
    · cases h'
  | payloadData c =>
    cases h
    simp [valueLength, payloadDataHeaderSize]
    omega
  | selectiveAck c =>
    cases h
    simp [valueLength, selectiveAckHeaderSize]
    omega
  | reconfig c =>
    have h' : c.marshalValue = .ok body := h
    show body.length = c.valueLength
    unfold ChunkReconfig.marshalValue at h'
    unfold ChunkReconfig.valueLength
    split at h'
    · cases h'
    · rename_i paramA ha hb
      cases h'
      rw [ha, hb]
      exact paramA.length_marshal
    · rename_i paramA paramB ha hb
      cases h'
      -- the padding between the two counts, the one behind them does not
      rw [ha, hb, List.length_append, List.length_append, paramA.length_marshal,
        paramB.length_marshal, length_zeros]
      show _ = paramHeaderLength + paramA.valueLength + (paramHeaderLength + paramB.valueLength +
        getPaddingSize (paramHeaderLength + paramA.valueLength))
      omega
  | forwardTsn c =>
    cases h
    have hone : ∀ s : ChunkForwardTsnStream, s.marshal.length = 4 := fun _ => rfl
    simp [valueLength, hone, newCumulativeTsnLength, forwardTsnStreamLength]
    omega
  | _ =>
    cases h
    rfl

/-- What a well-formed chunk writes behind its header. -/
theorem exists_marshalValue {c : Chunk} (hc : c.WellFormed) : ∃ body, c.marshalValue = .ok body := by
  obtain ⟨_, hform⟩ := hc
  cases c with
  | heartbeatAck params =>
    obtain ⟨info, rfl⟩ := hform
    exact ⟨_, rfl⟩
  | reconfig c =>
    obtain ⟨⟨paramA, ha, _⟩, _⟩ := hform
    show ∃ body, c.marshalValue = .ok body
    unfold ChunkReconfig.marshalValue
    rw [ha]
    cases c.paramB with
    | none => exact ⟨_, rfl⟩
    | some paramB => exact ⟨_, rfl⟩
  | _ => exact ⟨_, rfl⟩

/-! ## Headers

From here on a chunk is written as `body` behind its header, and `tail` follows it. -/

section

variable {c : Chunk} {body tail : Bytes}

/-- The header has the type of the chunk. -/
theorem header_typ (c : Chunk) : c.header.typ = c.typ := by
  cases c <;> rfl

/-- The length in the header is that of the marshalled value. -/
theorem header_valueLength (hc : c.WellFormed) (hbody : c.marshalValue = .ok body) :
    c.header.valueLength.toNat = body.length := by
  have hlen := length_marshalValue hbody
  obtain ⟨hfit, hform⟩ := hc
  unfold chunkHeaderSize at hfit
  have hnum : (BitVec.ofNat 16 c.valueLength).toNat = body.length := by
    rw [BitVec.toNat_ofNat, Nat.mod_eq_of_lt (by omega), hlen]
  cases c with
  | unknown hdr value =>
    show hdr.valueLength.toNat = _
    rw [hform.2]
    exact hnum
  | _ => exact hnum

/-- The header of a well-formed chunk is read back. -/
theorem header_unmarshal (hc : c.WellFormed) (hbody : c.marshalValue = .ok body)
    (htail : PaddingOrMore tail) :
    ChunkHeader.unmarshal (c.header.marshal ++ (body ++ tail)) = .ok c.header := by
  have hlen := length_marshalValue hbody
  refine ChunkHeader.unmarshal_marshal (header_valueLength hc hbody) ?_ htail
  rw [hlen]
  exact hc.1

/-- The value ends where the marshalled value does. -/
theorem header_stop (hc : c.WellFormed) (hbody : c.marshalValue = .ok body) :
    c.header.stop = chunkHeaderSize + body.length := by
  unfold ChunkHeader.stop
  rw [header_valueLength hc hbody]

/-- The value is cut out of the packet as it was marshalled. -/
theorem header_value (hc : c.WellFormed) (hbody : c.marshalValue = .ok body) :
    c.header.value (c.header.marshal ++ (body ++ tail)) = .ok body := by
  unfold ChunkHeader.value
  exact slice_append rfl (header_stop hc hbody)

/-- A decoder that looks at the header alone. -/
theorem headerOnly_marshal (hc : c.WellFormed) (hbody : c.marshalValue = .ok body)
    (htail : PaddingOrMore tail) (e : Error) :
    (do
      let header ← ChunkHeader.unmarshal (c.header.marshal ++ (body ++ tail))
      if header.typ ≠ c.typ then
        .err e
      else
        Outcome.ok c) = .ok c := by
  rw [header_unmarshal hc hbody htail, ok_bind, if_neg (not_not_intro (header_typ c))]

end

/-! ## COOKIE ECHO, HEARTBEAT and kinds that are not known -/

/-- A COOKIE ECHO is read back. -/
theorem unmarshalCookieEcho_marshal {cookie tail : Bytes} (hc : (cookieEcho cookie).WellFormed)
    (htail : PaddingOrMore tail) :
    unmarshalCookieEcho ((cookieEcho cookie).header.marshal ++ (cookie ++ tail)) =
      .ok (cookieEcho cookie) := by
  have htyp : (cookieEcho cookie).header.typ = ctCookieEcho := rfl
  unfold unmarshalCookieEcho
  rw [header_unmarshal hc rfl htail, ok_bind, if_neg (not_not_intro htyp), header_value hc rfl,
    ok_bind]

/-- A chunk of an unknown type keeps its bytes. -/
theorem unmarshalUnknown_marshal {c : Chunk} {body tail : Bytes} (hc : c.WellFormed)
    (hbody : c.marshalValue = .ok body) (htail : PaddingOrMore tail) :
    unmarshalUnknown (c.header.marshal ++ (body ++ tail)) = .ok (unknown c.header body) := by
  unfold unmarshalUnknown
  rw [header_unmarshal hc hbody htail, ok_bind, header_value hc hbody, ok_bind]

/-- A HEARTBEAT is read back. -/
theorem unmarshalHeartbeat_marshal {info tail : Bytes}
    (hc : (heartbeat [.heartbeatInfo info]).WellFormed) (htail : PaddingOrMore tail) :
    unmarshalHeartbeat ((heartbeat [.heartbeatInfo info]).header.marshal ++
      ((Param.heartbeatInfo info).marshal ++ tail)) = .ok (heartbeat [.heartbeatInfo info]) := by
  obtain ⟨c, hdef⟩ : ∃ c, c = heartbeat [.heartbeatInfo info] := ⟨_, rfl⟩
  have hbody : c.marshalValue = .ok (Param.heartbeatInfo info).marshal := by
    rw [hdef]
    exact congrArg Except.ok (List.append_nil _)
  have hfit := hc.1
  rw [← hdef] at hc ⊢
  have hlong : ¬ (c.header.marshal ++ ((Param.heartbeatInfo info).marshal ++ tail)).length ≤
      chunkHeaderSize := by
    rw [List.length_append, List.length_append, ChunkHeader.length_marshal, Param.length_marshal]
    unfold chunkHeaderSize paramHeaderLength
    omega
  have hparam : buildParam (Param.heartbeatInfo info).marshal = .ok (.heartbeatInfo info) := by
    have hfit' : paramHeaderLength + (Param.heartbeatInfo info).valueLength ≤ 65535 := by
      have hsum : (heartbeat [.heartbeatInfo info]).valueLength =
        paramHeaderLength + (Param.heartbeatInfo info).valueLength + 0 := rfl
      omega
    have hback := (@buildParam_marshal_iff (.heartbeatInfo info) trivial hfit' []).mpr trivial
    rw [List.append_nil] at hback
    exact hback
  have htyp : c.header.typ = ctHeartbeat := by
    rw [hdef]
    rfl
  have hkind : (Param.heartbeatInfo info).typ = .heartbeatInfo := rfl
  unfold unmarshalHeartbeat
  rw [header_unmarshal hc hbody htail, ok_bind, if_neg (not_not_intro htyp), if_neg hlong,
    header_value hc hbody, ok_bind, hparam, ok_bind, if_neg (not_not_intro hkind), hdef]

/-! ## DATA -/

/-- The four flags are read back. -/
theorem payloadFlags (c : ChunkPayloadData) :
    decide (c.flags &&& 8 ≠ 0) = c.immediateSack ∧ decide (c.flags &&& 4 ≠ 0) = c.unordered ∧
      decide (c.flags &&& 2 ≠ 0) = c.beginningFragment ∧
        decide (c.flags &&& 1 ≠ 0) = c.endingFragment := by
  unfold ChunkPayloadData.flags
  cases c.immediateSack <;> cases c.unordered <;> cases c.beginningFragment <;>
    cases c.endingFragment <;> decide

/-- A DATA chunk is read back. -/
theorem unmarshalPayloadData_marshal {d : ChunkPayloadData} {body tail : Bytes}
    (hc : (payloadData d).WellFormed) (hbody : (payloadData d).marshalValue = .ok body)
    (htail : PaddingOrMore tail) :
    unmarshalPayloadData ((payloadData d).header.marshal ++ (body ++ tail)) =
      .ok (payloadData d).wire := by
  have htyp : (payloadData d).header.typ = ctPayloadData := rfl
  have hlong : ¬ (payloadData d).header.valueLength.toNat < payloadDataHeaderSize := by
    rw [header_valueLength hc hbody, length_marshalValue hbody]
    show ¬ payloadDataHeaderSize + d.userData.length < payloadDataHeaderSize
    omega
  have hppi : PayloadProtocolIdentifier.ofU32 d.payloadType.toU32 = d.payloadType := by
    cases d.payloadType <;> rfl
  have hdata : ((payloadData d).header.marshal ++ (body ++ tail)).slice
      (chunkHeaderSize + payloadDataHeaderSize) (payloadData d).header.stop =
        (.ok d.userData : Outcome Error Bytes) := by
    rw [header_stop hc hbody]
    cases hbody
    have hsplit : ∀ (h : Bytes), h ++ ((putU32 d.tsn ++ (putU16 d.streamIdentifier ++
        (putU16 d.streamSequenceNumber ++ (putU32 d.payloadType.toU32 ++ d.userData)))) ++ tail) =
        (h ++ (putU32 d.tsn ++ (putU16 d.streamIdentifier ++ (putU16 d.streamSequenceNumber ++
          putU32 d.payloadType.toU32)))) ++ (d.userData ++ tail) := by
      intro h
      simp only [List.append_assoc]
    rw [hsplit]
    refine slice_append rfl ?_
    simp [payloadDataHeaderSize, chunkHeaderSize]
    omega
  obtain ⟨hsack, hunordered, hbeginning, hending⟩ := payloadFlags d
  unfold unmarshalPayloadData
  rw [header_unmarshal hc hbody htail, ok_bind, if_neg (not_not_intro htyp), if_neg hlong,
    header_value hc hbody, ok_bind]
  cases hbody
  rw [getU32_putU32, ok_bind]
  dsimp only
  rw [getU16_putU16, ok_bind]
  dsimp only
  rw [getU16_putU16, ok_bind]
  dsimp only
  rw [getU32_putU32, ok_bind]
  dsimp only
  rw [hdata, ok_bind, hppi]
  have hflags : (payloadData d).header.flags = d.flags := rfl
  rw [hflags, hsack, hunordered, hbeginning, hending]
  rfl

/-! ## SACK -/

/-- The gap blocks are read back one after the other. -/
theorem readGapAckBlocks_flatMap (blocks : List GapAckBlock) (rest : Bytes) :
    readGapAckBlocks blocks.length
      ((blocks.flatMap fun g => putU16 g.start ++ putU16 g.end_) ++ rest) = .ok (blocks, rest) := by
  induction blocks with
  | nil => rfl
  | cons g blocks ih =>
    rw [List.length_cons, List.flatMap_cons, List.append_assoc, List.append_assoc, readGapAckBlocks,
      getU16_putU16, ok_bind]
    dsimp only
    rw [getU16_putU16, ok_bind]
    dsimp only
    rw [ih, ok_bind]

/-- So are the duplicate TSNs. -/
theorem readDuplicateTsn_flatMap (ts : List U32) (rest : Bytes) :
    readDuplicateTsn ts.length (ts.flatMap putU32 ++ rest) = .ok ts := by
  induction ts with
  | nil => rfl
  | cons t ts ih =>
    rw [List.length_cons, List.flatMap_cons, List.append_assoc, readDuplicateTsn, getU32_putU32,
      ok_bind]
    dsimp only
    rw [ih, ok_bind]

/-- A SACK is read back. -/
theorem unmarshalSelectiveAck_marshal {d : ChunkSelectiveAck} {body tail : Bytes}
    (hc : (selectiveAck d).WellFormed) (hbody : (selectiveAck d).marshalValue = .ok body)
    (htail : PaddingOrMore tail) :
    unmarshalSelectiveAck ((selectiveAck d).header.marshal ++ (body ++ tail)) =
      .ok (selectiveAck d) := by
  have hlen : (selectiveAck d).header.valueLength.toNat =
      selectiveAckHeaderSize + d.gapAckBlocks.length * 4 + d.duplicateTsn.length * 4 := by
    rw [header_valueLength hc hbody, length_marshalValue hbody]
    rfl
  have hfit : chunkHeaderSize + (selectiveAckHeaderSize + d.gapAckBlocks.length * 4 +
      d.duplicateTsn.length * 4) ≤ 65535 := hc.1
  have hgaps : (BitVec.ofNat 16 d.gapAckBlocks.length).toNat = d.gapAckBlocks.length := by
    rw [BitVec.toNat_ofNat, Nat.mod_eq_of_lt (by omega)]
  have hdups : (BitVec.ofNat 16 d.duplicateTsn.length).toNat = d.duplicateTsn.length := by
    rw [BitVec.toNat_ofNat, Nat.mod_eq_of_lt (by omega)]
  have htyp : (selectiveAck d).header.typ = ctSack := rfl
  have hlast := readDuplicateTsn_flatMap d.duplicateTsn []
  rw [List.append_nil] at hlast
  unfold unmarshalSelectiveAck
  rw [header_unmarshal hc hbody htail, ok_bind]
  dsimp only
  rw [hlen, if_neg (not_not_intro htyp), if_neg (by omega), header_value hc hbody, ok_bind]
  cases hbody
  rw [getU32_putU32, ok_bind]
  dsimp only
  rw [getU32_putU32, ok_bind]
  dsimp only
  rw [getU16_putU16, ok_bind]
  dsimp only
  rw [getU16_putU16, ok_bind]
  dsimp only
  rw [hgaps, hdups, if_neg (by omega), readGapAckBlocks_flatMap, ok_bind]
  dsimp only
  rw [hlast, ok_bind]

/-! ## RECONFIG -/

/-- The parameter B starts behind the parameter A and its padding. -/
theorem unmarshalReconfig_marshal {d : ChunkReconfig} {body tail : Bytes}
    (hc : (reconfig d).WellFormed) (hbody : (reconfig d).marshalValue = .ok body)
    (htail : PaddingOrMore tail) :
    unmarshalReconfig ((reconfig d).header.marshal ++ (body ++ tail)) = .ok (reconfig d) ↔
      (reconfig d).Recoverable := by
  obtain ⟨hfit, ⟨paramA, ha, hwellA⟩, hwellB⟩ := hc
  have hc' : (reconfig d).WellFormed := ⟨hfit, ⟨paramA, ha, hwellA⟩, hwellB⟩
  have htyp : (reconfig d).header.typ = ctReconfig := rfl
  have hlength := length_marshalValue hbody
  have hstop := header_stop hc' hbody
  unfold unmarshalReconfig
  rw [header_unmarshal hc' hbody htail, ok_bind, if_neg (not_not_intro htyp), header_value hc' hbody,
    ok_bind, hstop]
  have hfit' : chunkHeaderSize + d.valueLength ≤ 65535 := hfit
  have hbody' : d.marshalValue = .ok body := hbody
  unfold ChunkReconfig.valueLength at hfit'
  unfold ChunkReconfig.marshalValue at hbody'
  unfold Recoverable
  obtain ⟨pa, pb⟩ := d
  dsimp only at ha hwellB hfit' hbody' ⊢
  subst ha
  cases pb with
  | none =>
    cases hbody'
    -- one parameter: nothing is left behind it, so the second is not looked for
    have hlenA : paramHeaderLength + paramA.valueLength ≤ 65535 := by
      change chunkHeaderSize + (paramHeaderLength + paramA.valueLength) ≤ 65535 at hfit'
      omega
    have hiff := buildParam_marshal_iff hwellA hlenA []
    rw [List.append_nil] at hiff
    constructor
    · intro h
      obtain ⟨p, hp, h⟩ := bind_eq_ok.mp h
      split at h
      · obtain ⟨q, _, h⟩ := bind_eq_ok.mp h
        obtain ⟨q', _, h⟩ := bind_eq_ok.mp h
        cases h
      · cases h
        exact ⟨fun p' hp' => Option.some_inj.mp hp' ▸ hiff.mp hp, nofun⟩
    · intro h
      rw [hiff.mpr (h.1 paramA rfl), ok_bind, if_neg]
      rw [paramA.length_marshal]
      unfold chunkHeaderSize
      omega
  | some paramB =>
    cases hbody'
    change chunkHeaderSize + (paramHeaderLength + paramA.valueLength + (paramHeaderLength +
      paramB.valueLength + getPaddingSize (paramHeaderLength + paramA.valueLength))) ≤ 65535 at hfit'
    -- two parameters: the first is padded, and the second starts behind the padding
    have hiffA := buildParam_marshal_iff hwellA (by omega)
      (zeros (getPaddingSize (paramHeaderLength + paramA.valueLength)) ++ paramB.marshal)
    have hiffB := buildParam_marshal_iff (hwellB paramB rfl) (by omega) []
    rw [List.append_nil] at hiffB
    have hslice : ((reconfig ⟨some paramA, some paramB⟩).header.marshal ++ ((paramA.marshal ++
        (zeros (getPaddingSize (paramHeaderLength + paramA.valueLength)) ++ paramB.marshal)) ++ tail)).slice
          (chunkHeaderSize + paramHeaderLength + paramA.valueLength +
            getPaddingSize (paramHeaderLength + paramA.valueLength))
          (chunkHeaderSize + (paramA.marshal ++ (zeros (getPaddingSize (paramHeaderLength +
            paramA.valueLength)) ++ paramB.marshal)).length) =
        (.ok paramB.marshal : Outcome Error Bytes) := by
      -- what the second decoder is given is the second parameter
      have hsplit : ∀ h z : Bytes, h ++ ((paramA.marshal ++ (z ++ paramB.marshal)) ++ tail) =
          (h ++ (paramA.marshal ++ z)) ++ (paramB.marshal ++ tail) := by
        intro h z
        simp only [List.append_assoc]
      rw [hsplit]
      refine slice_append ?_ ?_
      · simp only [List.length_append, ChunkHeader.length_marshal, paramA.length_marshal, length_zeros]
        unfold chunkHeaderSize
        omega
      · simp only [List.length_append, paramA.length_marshal, length_zeros]
        omega
    have hmore : chunkHeaderSize + (paramA.marshal ++ (zeros (getPaddingSize (paramHeaderLength +
        paramA.valueLength)) ++ paramB.marshal)).length >
          chunkHeaderSize + paramHeaderLength + paramA.valueLength +
            getPaddingSize (paramHeaderLength + paramA.valueLength) := by
      simp only [List.length_append, paramA.length_marshal, paramB.length_marshal, length_zeros]
      unfold paramHeaderLength
      omega
    constructor
    · intro h
      obtain ⟨p, hp, h⟩ := bind_eq_ok.mp h
      split at h
      · obtain ⟨rawB, hrawB, h⟩ := bind_eq_ok.mp h
        obtain ⟨q, hq, h⟩ := bind_eq_ok.mp h
        cases h
        rw [hslice] at hrawB
        cases hrawB
        exact ⟨fun p' hp' => Option.some_inj.mp hp' ▸ hiffA.mp hp,
          fun p' hp' => Option.some_inj.mp hp' ▸ hiffB.mp hq⟩
      · cases h
    · intro h
      rw [hiffA.mpr (h.1 paramA rfl), ok_bind, if_pos hmore, hslice, ok_bind,
        hiffB.mpr (h.2 paramB rfl), ok_bind]

/-! ## ABORT and ERROR -/

/-- An error cause is read back, whatever follows it. -/
theorem errorCause_unmarshal_marshal {e : ErrorCause} {rest : Bytes} (hlen : e.length ≤ 65535) :
    ErrorCause.unmarshal (e.marshal ++ rest) = .ok e := by
  have hraw : e.marshal ++ rest = putU16 e.code ++
      (putU16 (BitVec.ofNat 16 (e.raw.length + errorCauseHeaderLength)) ++ (e.raw ++ rest)) := by
    unfold ErrorCause.marshal
    simp only [List.append_assoc]
  have htotal : (e.marshal ++ rest).length = e.length + rest.length := by
    rw [hraw]
    unfold ErrorCause.length errorCauseHeaderLength
    simp
    omega
  have hnum : (BitVec.ofNat 16 (e.raw.length + errorCauseHeaderLength)).toNat = e.length := by
    rw [BitVec.toNat_ofNat]
    exact Nat.mod_eq_of_lt (by unfold ErrorCause.length at hlen; omega)
  have hfour : e.length = e.raw.length + errorCauseHeaderLength := rfl
  have hvalue : (e.marshal ++ rest).slice errorCauseHeaderLength
      (errorCauseHeaderLength + (e.length - errorCauseHeaderLength)) =
        (.ok e.raw : Outcome Error Bytes) := by
    rw [hfour, Nat.add_sub_cancel]
    unfold ErrorCause.marshal
    rw [List.append_assoc]
    exact slice_append rfl rfl
  unfold ErrorCause.unmarshal
  rw [if_neg (by omega), hraw, getU16_putU16, ok_bind]
  dsimp only
  rw [getU16_putU16, ok_bind, ← hraw]
  dsimp only
  rw [hnum, if_neg (by omega), if_neg (by omega), hvalue, ok_bind]

/-- The loop over the error causes stops only where the packet stops. -/
theorem unmarshalErrorCauses_flatMap {errorCauses : List ErrorCause} {raw pre tail : Bytes}
    {stop offset : ℕ} (hraw : raw = pre ++ (errorCauses.flatMap ErrorCause.marshal ++ tail))
    (hoffset : offset = pre.length)
    (hstop : stop = offset + (errorCauses.flatMap ErrorCause.marshal).length)
    (hfit : (errorCauses.flatMap ErrorCause.marshal).length ≤ 65535) :
    unmarshalErrorCauses raw stop offset =
      if tail.length < 4 then .ok errorCauses else .err .errErrorCauseTooSmall := by
  induction errorCauses generalizing pre offset with
  | nil =>
    rw [List.flatMap_nil, List.nil_append] at hraw
    have hlen : raw.length = offset + tail.length := by
      rw [hraw, List.length_append, hoffset]
    have hslice : (raw.slice offset stop : Outcome Error Bytes) = .ok [] := by
      rw [hraw]
      exact @slice_append Error pre [] tail offset stop hoffset hstop
    rw [unmarshalErrorCauses]
    split_ifs with hmore hshort hshort
    · omega
    · rw [hslice, ok_bind]
      rfl
    · rfl
    · omega
  | cons e errorCauses ih =>
    rw [List.flatMap_cons] at hraw hstop hfit
    have hcause : e.marshal.length = e.length := by
      unfold ErrorCause.marshal ErrorCause.length
      simp [errorCauseHeaderLength]
      omega
    rw [List.length_append, hcause] at hstop hfit
    have hlen : raw.length = offset + (e.length +
        (errorCauses.flatMap ErrorCause.marshal).length) + tail.length := by
      rw [hraw, List.length_append, List.length_append, List.length_append, hoffset, hcause]
      omega
    have hfour : 4 ≤ e.length := Nat.le_add_left _ _
    have hslice : (raw.slice offset stop : Outcome Error Bytes) =
        .ok (e.marshal ++ errorCauses.flatMap ErrorCause.marshal) := by
      rw [hraw]
      refine slice_append hoffset ?_
      rw [List.length_append, hcause, hstop]
    have hback := @errorCause_unmarshal_marshal e (errorCauses.flatMap ErrorCause.marshal) (by omega)
    have hrest := @ih (pre ++ e.marshal) (offset + e.length)
      (by rw [hraw, List.append_assoc, List.append_assoc])
      (by rw [List.length_append, hcause, hoffset]) (by omega) (by omega)
    rw [unmarshalErrorCauses, if_pos (by omega), hslice, ok_bind, hback, ok_bind, hrest]
    split_ifs
    · rfl
    · rfl

/-- A decoder of error causes, of an ABORT or an ERROR as `mk` says. -/
theorem errorCauses_marshal {mk : List ErrorCause → Chunk} {errorCauses : List ErrorCause}
    {tail : Bytes} (hc : (mk errorCauses).WellFormed)
    (hbody : (mk errorCauses).marshalValue = .ok (errorCauses.flatMap ErrorCause.marshal))
    (htail : PaddingOrMore tail) (e : Error) :
    (do
      let raw := (mk errorCauses).header.marshal ++ (errorCauses.flatMap ErrorCause.marshal ++ tail)
      let header ← ChunkHeader.unmarshal raw
      if header.typ ≠ (mk errorCauses).typ then
        .err e
      else
        let causes ← unmarshalErrorCauses raw header.stop chunkHeaderSize
        Outcome.ok (mk causes)) =
      if tail.length < 4 then .ok (mk errorCauses) else .err .errErrorCauseTooSmall := by
  have hlength := length_marshalValue hbody
  have hfit := hc.1
  have hcauses := @unmarshalErrorCauses_flatMap errorCauses _ (mk errorCauses).header.marshal tail
    (mk errorCauses).header.stop chunkHeaderSize rfl rfl (header_stop hc hbody) (by omega)
  dsimp only
  rw [header_unmarshal hc hbody htail, ok_bind, if_neg (not_not_intro (header_typ _)), hcauses]
  split_ifs
  · rfl
  · rfl

/-! ## FORWARD TSN and SHUTDOWN -/

/-- The streams of a FORWARD TSN are read back from where they begin. -/
theorem unmarshalForwardTsnStreams_flatMap {streams : List ChunkForwardTsnStream}
    {buf pre tail : Bytes} {stop offset remaining : ℕ}
    (hbuf : buf = pre ++ (streams.flatMap ChunkForwardTsnStream.marshal ++ tail))
    (hoffset : offset = pre.length)
    (hstop : stop = offset + (streams.flatMap ChunkForwardTsnStream.marshal).length)
    (hremaining : remaining =
      (streams.flatMap ChunkForwardTsnStream.marshal).length + tail.length) :
    unmarshalForwardTsnStreams buf stop offset remaining =
      if tail = [] then .ok streams else .err .errChunkTooShort := by
  induction streams generalizing pre offset remaining with
  | nil =>
    rw [List.flatMap_nil, List.nil_append] at hbuf
    rw [List.flatMap_nil, List.length_nil] at hremaining
    have hslice : (buf.slice offset stop : Outcome Error Bytes) = .ok [] := by
      rw [hbuf]
      exact @slice_append Error pre [] tail offset stop hoffset hstop
    rw [unmarshalForwardTsnStreams]
    -- what is left over is too short for an entry
    by_cases htail : tail = []
    · rw [if_pos htail, if_neg (by rw [hremaining, htail]; exact Nat.lt_irrefl 0)]
    · have hpos : 0 < tail.length := List.length_pos_iff.mpr htail
      rw [if_neg htail, if_pos (by omega), hslice, ok_bind]
      rfl
  | cons s streams ih =>
    rw [List.flatMap_cons] at hbuf hstop hremaining
    have hone : s.marshal.length = 4 := rfl
    rw [List.length_append, hone] at hstop hremaining
    have hslice : (buf.slice offset stop : Outcome Error Bytes) =
        .ok (s.marshal ++ streams.flatMap ChunkForwardTsnStream.marshal) := by
      rw [hbuf]
      refine slice_append hoffset ?_
      rw [List.length_append, hone, hstop]
    have hback : unmarshalForwardTsnStream (s.marshal ++
        streams.flatMap ChunkForwardTsnStream.marshal) = .ok s := by
      have hlong : ¬ (s.marshal ++ streams.flatMap ChunkForwardTsnStream.marshal).length <
          forwardTsnStreamLength := by
        rw [List.length_append, hone]
        unfold forwardTsnStreamLength
        omega
      unfold unmarshalForwardTsnStream
      rw [if_neg hlong]
      unfold ChunkForwardTsnStream.marshal
      rw [List.append_assoc, getU16_putU16, ok_bind]
      dsimp only
      rw [getU16_putU16, ok_bind]
    have hrest := @ih (pre ++ s.marshal) (offset + forwardTsnStreamLength)
      (remaining - forwardTsnStreamLength) (by rw [hbuf, List.append_assoc, List.append_assoc])
      (by rw [List.length_append, hone, hoffset]; rfl)
      (by unfold forwardTsnStreamLength; omega) (by unfold forwardTsnStreamLength; omega)
    rw [unmarshalForwardTsnStreams, if_pos (by omega), hslice, ok_bind, hback, ok_bind,
      if_neg (by unfold forwardTsnStreamLength; omega), hrest]
    split_ifs
    · rfl
    · rfl

/-- A FORWARD TSN with nothing but padding behind it is read back. -/
theorem unmarshalForwardTsn_marshal {d : ChunkForwardTsn} {body tail : Bytes}
    (hc : (forwardTsn d).WellFormed) (hbody : (forwardTsn d).marshalValue = .ok body)
    (htail : PaddingOrMore tail) :
    unmarshalForwardTsn ((forwardTsn d).header.marshal ++ (body ++ tail)) =
      if tail = [] then .ok (forwardTsn d) else .err .errChunkTooShort := by
  have htyp : (forwardTsn d).header.typ = ctForwardTsn := rfl
  have hstop := header_stop hc hbody
  obtain ⟨h, hh⟩ : ∃ h, h = (forwardTsn d).header := ⟨_, rfl⟩
  have hread := header_unmarshal hc hbody htail
  have hvalue := @header_value _ _ tail hc hbody
  rw [← hh] at htyp hstop hread hvalue ⊢
  cases hbody
  have hlong : (h.marshal ++ ((putU32 d.newCumulativeTsn ++
      d.streams.flatMap ChunkForwardTsnStream.marshal) ++ tail)).length =
      chunkHeaderSize + newCumulativeTsnLength +
        ((d.streams.flatMap ChunkForwardTsnStream.marshal).length + tail.length) := by
    simp only [List.length_append, ChunkHeader.length_marshal, length_putU32]
    unfold chunkHeaderSize newCumulativeTsnLength
    omega
  have hstreams := @unmarshalForwardTsnStreams_flatMap d.streams _
    (h.marshal ++ putU32 d.newCumulativeTsn) tail h.stop
    (chunkHeaderSize + newCumulativeTsnLength)
    ((d.streams.flatMap ChunkForwardTsnStream.marshal).length + tail.length) rfl rfl
    (by
      rw [hstop, List.length_append, length_putU32]
      unfold chunkHeaderSize newCumulativeTsnLength
      omega) rfl
  have hsplit : (h.marshal ++ putU32 d.newCumulativeTsn) ++
      (d.streams.flatMap ChunkForwardTsnStream.marshal ++ tail) =
        h.marshal ++ ((putU32 d.newCumulativeTsn ++
          d.streams.flatMap ChunkForwardTsnStream.marshal) ++ tail) := by
    simp only [List.append_assoc]
  rw [hsplit] at hstreams
  unfold unmarshalForwardTsn
  rw [hread, ok_bind, if_neg (not_not_intro htyp)]
  dsimp only
  rw [hlong, if_neg (by omega), hvalue, ok_bind, getU32_putU32, ok_bind]
  dsimp only
  rw [Nat.add_sub_cancel_left, hstreams]
  split_ifs
  · rfl
  · rfl

/-- A SHUTDOWN with nothing but padding behind it is read back. -/
theorem unmarshalShutdown_marshal {cumulativeTsnAck : U32} {body tail : Bytes}
    (hc : (shutdown cumulativeTsnAck).WellFormed)
    (hbody : (shutdown cumulativeTsnAck).marshalValue = .ok body) (htail : PaddingOrMore tail) :
    unmarshalShutdown ((shutdown cumulativeTsnAck).header.marshal ++ (body ++ tail)) =
      if tail = [] then .ok (shutdown cumulativeTsnAck) else .err .errInvalidChunkSize := by
  have htyp : (shutdown cumulativeTsnAck).header.typ = ctShutdown := rfl
  have hlong : ((shutdown cumulativeTsnAck).header.marshal ++ (body ++ tail)).length =
      chunkHeaderSize + cumulativeTsnAckLength + tail.length := by
    rw [List.length_append, List.length_append, length_marshalValue hbody, ← Nat.add_assoc]
    rfl
  have hread := @getU32_putU32 Error cumulativeTsnAck []
  rw [List.append_nil] at hread
  unfold unmarshalShutdown
  rw [header_unmarshal hc hbody htail, ok_bind, if_neg (not_not_intro htyp), hlong,
    header_value hc hbody, ok_bind]
  cases hbody
  rw [hread, ok_bind]
  by_cases htail : tail = []
  · rw [if_pos htail, if_neg (by rw [htail]; exact not_not_intro rfl)]
  · have hpos : 0 < tail.length := List.length_pos_iff.mpr htail
    rw [if_neg htail, if_pos (by omega)]

/-! ## INIT and INIT ACK -/

/-- One round of the loop over the parameters. -/
theorem unmarshalInitParams_cons {raw more : Bytes} {stop offset : ℕ} {remaining : ℤ} {p : Param}
    {ps : List Param} (hmore : remaining > (initOptionalVarHeaderLength : ℤ))
    (hslice : (raw.slice offset stop : Outcome Error Bytes) = .ok (p.marshal ++ more))
    (hp : p.WellFormed)
    (hlen : paramHeaderLength + p.valueLength ≤ 65535) :
    unmarshalInitParams raw stop offset remaining = .ok (p :: ps) ↔
      p.KnownAlgorithms ∧
        unmarshalInitParams raw stop
          (offset + (paramHeaderLength + p.valueLength +
            getPaddingSize (paramHeaderLength + p.valueLength)))
          (remaining - ↑(paramHeaderLength + p.valueLength +
            getPaddingSize (paramHeaderLength + p.valueLength))) = .ok ps := by
  have hback := buildParam_marshal_iff hp hlen more
  rw [unmarshalInitParams, if_pos hmore, hslice, ok_bind]
  constructor
  · intro h
    obtain ⟨q, hq, h⟩ := bind_eq_ok.mp h
    obtain ⟨qs, hqs, h⟩ := bind_eq_ok.mp h
    cases h
    exact ⟨hback.mp hq, hqs⟩
  · intro ⟨hknown, hps⟩
    rw [hback.mpr hknown, ok_bind]
    dsimp only
    rw [hps, ok_bind]

/-- The loop over the parameters of an INIT that ends its packet. It stops as soon as no more
than a parameter header is left. -/
theorem unmarshalInitParams_marshal {ps : List Param} {raw pre : Bytes} {stop offset : ℕ}
    {remaining : ℤ}
    (hraw : raw = pre ++ (marshalParams ps ++ zeros (getPaddingSize (paramsLength ps))))
    (hoffset : offset = pre.length) (hstop : stop = offset + paramsLength ps)
    (hremaining : remaining = paramsLength ps + getPaddingSize (paramsLength ps))
    (hwell : ∀ p ∈ ps, p.WellFormed) (hfit : paramsLength ps ≤ 65535) :
    unmarshalInitParams raw stop offset remaining = .ok ps ↔
      (∀ p ∈ ps, p.KnownAlgorithms) ∧ ∀ p, ps.getLast? = some p → 0 < p.valueLength := by
  induction ps using marshalParams.induct generalizing pre offset remaining with
  | case1 =>
    -- nothing is left to read
    have hzero : remaining = 0 := hremaining
    rw [unmarshalInitParams, if_neg (by rw [hzero]; exact Int.not_lt.mpr (by decide))]
    exact iff_of_true rfl ⟨nofun, nofun⟩
  | case2 p =>
    obtain ⟨n, hn⟩ : ∃ n, paramHeaderLength + p.valueLength = n := ⟨_, rfl⟩
    have hlen : paramsLength [p] = n := hn
    have hbytes : p.marshal.length = n := p.length_marshal.trans hn
    rw [hlen] at hraw hstop hremaining hfit
    have hmod := add_getPaddingSize_mod n
    have hgetLast : (∀ q, [p].getLast? = some q → 0 < q.valueLength) ↔ 0 < p.valueLength :=
      ⟨fun h => h p rfl, fun h q hq => by cases hq; exact h⟩
    rw [hgetLast, List.forall_mem_singleton]
    have hn' : n = 4 + p.valueLength := hn.symm
    by_cases hbare : 0 < p.valueLength
    · -- the last one is not padded, and reading it leaves nothing
      have hslice : (raw.slice offset stop : Outcome Error Bytes) = .ok (p.marshal ++ []) := by
        rw [hraw, List.append_nil]
        refine @slice_append Error pre p.marshal _ offset stop hoffset ?_
        rw [hbytes, hstop]
      have hmore : remaining > (initOptionalVarHeaderLength : ℤ) := by
        unfold initOptionalVarHeaderLength
        omega
      rw [unmarshalInitParams_cons hmore hslice (hwell p List.mem_cons_self) (by omega), hn]
      refine and_congr_right fun _ => iff_of_true ?_ hbare
      rw [unmarshalInitParams, if_neg]
      unfold initOptionalVarHeaderLength
      omega
    · -- four bytes are left, and the loop asks for more than four
      have hsmall : ¬ remaining > (initOptionalVarHeaderLength : ℤ) := by
        have hpad := getPaddingSize_lt n
        unfold initOptionalVarHeaderLength
        omega
      rw [unmarshalInitParams, if_neg hsmall]
      exact iff_of_false nofun fun h => hbare h.2
  | case3 p ps hne ih =>
    obtain ⟨q, qs, rfl⟩ := List.exists_cons_of_ne_nil hne
    obtain ⟨n, hn⟩ : ∃ n, paramHeaderLength + p.valueLength = n := ⟨_, rfl⟩
    obtain ⟨m, hm⟩ : ∃ m, paramsLength (q :: qs) = m := ⟨_, rfl⟩
    have hlen : paramsLength (p :: q :: qs) = n + getPaddingSize n + m := by rw [← hn, ← hm]; rfl
    have hbytes : p.marshal.length = n := p.length_marshal.trans hn
    have hmod := add_getPaddingSize_mod n
    have hpad : getPaddingSize (n + getPaddingSize n + m) = getPaddingSize m :=
      getPaddingSize_add hmod m
    have hwrite : marshalParams (p :: q :: qs) =
        p.marshal ++ (zeros (getPaddingSize n) ++ marshalParams (q :: qs)) := by
      rw [← hbytes, ← List.append_assoc]
      rfl
    have htotal : (marshalParams (q :: qs)).length = m := (length_marshalParams _).trans hm
    rw [hlen, hpad, hwrite] at hraw
    rw [hlen] at hstop hremaining hfit
    rw [hpad] at hremaining
    have hrest : 4 ≤ m := by
      rw [← hm]
      cases qs <;> simp only [paramsLength, paramHeaderLength] <;> omega
    have hhead : 4 ≤ n := by
      rw [← hn]
      exact Nat.le_add_right _ _
    have hslice : (raw.slice offset stop : Outcome Error Bytes) =
        .ok (p.marshal ++ (zeros (getPaddingSize n) ++ marshalParams (q :: qs))) := by
      rw [hraw]
      refine slice_append hoffset ?_
      simp only [List.length_append, hbytes, htotal, length_zeros]
      omega
    have hmore : remaining > (initOptionalVarHeaderLength : ℤ) := by
      unfold initOptionalVarHeaderLength
      omega
    -- behind this one and its padding the rest is read
    have hnext := @ih (pre ++ (p.marshal ++ zeros (getPaddingSize n)))
      (offset + (n + getPaddingSize n)) (remaining - ↑(n + getPaddingSize n))
      (by rw [hraw, hm]; simp only [List.append_assoc])
      (by simp only [List.length_append, hbytes, length_zeros, hoffset])
      (by rw [hm]; omega) (by rw [hm]; omega) (fun p' hp' => hwell p' (List.mem_cons_of_mem _ hp'))
      (by omega)
    have hlast : (p :: q :: qs).getLast? = (q :: qs).getLast? := List.getLast?_cons_cons
    rw [unmarshalInitParams_cons hmore hslice (hwell p List.mem_cons_self) (by omega), hn, hnext,
      hlast, ← and_assoc]
    exact and_congr_left' List.forall_mem_cons.symm

/-- An INIT or INIT ACK that ends its packet. -/
theorem unmarshalInit_marshal {d : ChunkInit} {body tail : Bytes} (hc : (init d).WellFormed)
    (hbody : (init d).marshalValue = .ok body)
    (htail : tail = zeros (getPaddingSize (chunkHeaderSize + body.length))) :
    unmarshalInit ((init d).header.marshal ++ (body ++ tail)) = .ok (init d) ↔
      (init d).Recoverable := by
  have hpadding : PaddingOrMore tail := htail ▸ paddingOrMore_zeros _
  have htyp : (init d).header.typ = if d.isAck then ctInitAck else ctInit := rfl
  have hflags : (init d).header.flags = 0 := rfl
  have hvalue := header_valueLength hc hbody
  have hstop := header_stop hc hbody
  have hread := header_unmarshal hc hbody hpadding
  have hslice := @header_value _ _ tail hc hbody
  have hlength : body.length = 16 + paramsLength d.params := length_marshalValue hbody
  have hfit : chunkHeaderSize + (16 + paramsLength d.params) ≤ 65535 := hc.1
  have hwell : ∀ p ∈ d.params, p.WellFormed := hc.2
  obtain ⟨h, hh⟩ : ∃ h, h = (init d).header := ⟨_, rfl⟩
  rw [← hh] at htyp hflags hvalue hstop hread hslice ⊢
  have hack : decide (h.typ = ctInitAck) = d.isAck := by
    rw [htyp]
    cases d.isAck <;> rfl
  have hkind : ¬ ¬ (h.typ = ctInit ∨ h.typ = ctInitAck) := by
    rw [htyp]
    cases d.isAck <;> simp
  -- the fixed part has no padding, so the padding is that of the parameters
  have hpad : getPaddingSize (chunkHeaderSize + body.length) =
      getPaddingSize (paramsLength d.params) := by
    rw [hlength, ← Nat.add_assoc]
    exact getPaddingSize_add rfl _
  rw [hpad] at htail
  have hsplit : h.marshal ++ (body ++ tail) = (h.marshal ++ (putU32 d.initiateTag ++
      (putU32 d.advertisedReceiverWindowCredit ++ (putU16 d.numOutboundStreams ++
        (putU16 d.numInboundStreams ++ putU32 d.initialTsn))))) ++
          (marshalParams d.params ++ zeros (getPaddingSize (paramsLength d.params))) := by
    rw [htail]
    cases hbody
    simp only [List.append_assoc]
  have hremaining : ((h.marshal ++ (body ++ tail)).length : ℤ) -
      ↑(chunkHeaderSize + initChunkMinLength) =
        paramsLength d.params + getPaddingSize (paramsLength d.params) := by
    rw [List.length_append, List.length_append, ChunkHeader.length_marshal, hlength, htail,
      length_zeros]
    unfold chunkHeaderSize initChunkMinLength
    omega
  have hend : h.stop = chunkHeaderSize + initChunkMinLength + paramsLength d.params := by
    rw [hstop, hlength]
    exact (Nat.add_assoc _ _ _).symm
  have hparams := @unmarshalInitParams_marshal d.params _ _ h.stop
    (chunkHeaderSize + initChunkMinLength) _ hsplit rfl hend hremaining hwell (by omega)
  unfold unmarshalInit
  have hlong : ¬ h.valueLength.toNat < initChunkMinLength := by
    rw [hvalue, hlength]
    exact Nat.not_lt.mpr (Nat.le_add_right _ _)
  rw [hread, ok_bind, if_neg hkind, if_neg hlong, if_neg (not_not_intro hflags), hslice, ok_bind]
  obtain ⟨raw, hraw⟩ : ∃ raw, raw = h.marshal ++ (body ++ tail) := ⟨_, rfl⟩
  rw [← hraw] at hparams ⊢
  cases hbody
  -- field by field
  rw [getU32_putU32, ok_bind]
  dsimp only
  rw [getU32_putU32, ok_bind]
  dsimp only
  rw [getU16_putU16, ok_bind]
  dsimp only
  rw [getU16_putU16, ok_bind]
  dsimp only
  rw [getU32_putU32, ok_bind, hack]
  dsimp only
  refine Iff.trans ?_ hparams
  constructor
  · intro hok
    obtain ⟨ps, hps, hok⟩ := bind_eq_ok.mp hok
    rw [hps]
    injection hok with hok
    injection hok with hok
    exact congrArg Outcome.ok (congrArg ChunkInit.params hok :)
  · intro hok
    rw [hok, ok_bind]

/-! ## Every kind -/

section

variable {c : Chunk} {body tail : Bytes}

/-- A type without a decoder is read as an unknown chunk. -/
theorem unmarshal_of_unknown {ct : ChunkType} (hct : hasDecoder ct = false) (raw : Bytes) :
    unmarshal ct raw = unmarshalUnknown raw := by
  unfold hasDecoder at hct
  simp only [List.mem_cons, List.not_mem_nil, or_false, decide_eq_false_iff_not, not_or] at hct
  unfold unmarshal
  simp only [hct, if_false]

/-- The decoders that stop where their chunk stops do so whatever follows. -/
theorem unmarshal_marshal_iff (hc : c.WellFormed) (hbody : c.marshalValue = .ok body)
    (htail : PaddingOrMore tail) (hinit : c.isInit = false) (hstops : c.readsOn = false) :
    unmarshal c.typ (c.header.marshal ++ (body ++ tail)) = .ok c.wire ↔ c.Recoverable := by
  cases c with
  | init d => exact absurd hinit nofun
  | abort errorCauses => exact absurd hstops nofun
  | error errorCauses => exact absurd hstops nofun
  | forwardTsn d => exact absurd hstops nofun
  | shutdown cumulativeTsnAck => exact absurd hstops nofun
  | cookieEcho cookie =>
    cases hbody
    exact iff_of_true (unmarshalCookieEcho_marshal hc htail) trivial
  | cookieAck => exact iff_of_true (headerOnly_marshal hc hbody htail .errChunkTypeNotCookieAck) trivial
  | shutdownAck =>
    exact iff_of_true (headerOnly_marshal hc hbody htail .errChunkTypeNotShutdownAck) trivial
  | shutdownComplete =>
    exact iff_of_true (headerOnly_marshal hc hbody htail .errChunkTypeNotShutdownComplete) trivial
  | heartbeat params =>
    obtain ⟨info, rfl⟩ := hc.2
    have hvalue : body = (Param.heartbeatInfo info).marshal := by
      cases hbody
      exact List.append_nil _
    rw [hvalue]
    exact iff_of_true (unmarshalHeartbeat_marshal hc htail) trivial
  | heartbeatAck params =>
    -- no decoder is chosen by its type
    refine iff_of_false ?_ id
    have hother : hasDecoder (heartbeatAck params).typ = false := by
      show hasDecoder ctHeartbeatAck = false
      decide
    rw [unmarshal_of_unknown hother, unmarshalUnknown_marshal hc hbody htail]
    exact nofun
  | payloadData d => exact iff_of_true (unmarshalPayloadData_marshal hc hbody htail) trivial
  | selectiveAck d => exact iff_of_true (unmarshalSelectiveAck_marshal hc hbody htail) trivial
  | reconfig d => exact unmarshalReconfig_marshal hc hbody htail
  | unknown hdr value =>
    have hother : hasDecoder (unknown hdr value).typ = false := hc.2.1
    refine iff_of_true ?_ trivial
    rw [unmarshal_of_unknown hother, unmarshalUnknown_marshal hc hbody htail]
    cases hbody
    rfl

/-- The decoders that go on to the end of the packet refuse their chunk where another one
follows. -/
theorem unmarshal_marshal_of_readsOn (hc : c.WellFormed) (hbody : c.marshalValue = .ok body)
    (hreads : c.readsOn = true) (htail : 4 ≤ tail.length) :
    ∃ e, unmarshal c.typ (c.header.marshal ++ (body ++ tail)) = .err e := by
  have hmore := paddingOrMore_of_le htail
  have hnot : ¬ tail.length < 4 := Nat.not_lt.mpr htail
  have hne : tail ≠ [] := List.ne_nil_of_length_pos (by omega)
  cases c with
  | abort errorCauses =>
    cases hbody
    have h := @errorCauses_marshal abort _ _ hc rfl hmore .errChunkTypeNotAbort
    rw [if_neg hnot] at h
    exact ⟨_, h⟩
  | error errorCauses =>
    cases hbody
    have h := @errorCauses_marshal error _ _ hc rfl hmore .errChunkTypeNotCtError
    rw [if_neg hnot] at h
    exact ⟨_, h⟩
  | forwardTsn d =>
    have h := unmarshalForwardTsn_marshal hc hbody hmore
    rw [if_neg hne] at h
    exact ⟨_, h⟩
  | shutdown cumulativeTsnAck =>
    have h := unmarshalShutdown_marshal hc hbody hmore
    rw [if_neg hne] at h
    exact ⟨_, h⟩
  | _ => exact absurd hreads nofun

/-- A chunk that ends its packet is followed by its padding. -/
theorem unmarshal_marshal_last_iff (hc : c.WellFormed) (hbody : c.marshalValue = .ok body) :
    unmarshal c.typ (c.header.marshal ++ (body ++
      zeros (getPaddingSize (chunkHeaderSize + body.length)))) = .ok c.wire ↔ c.Recoverable := by
  have htail := paddingOrMore_zeros (getPaddingSize (chunkHeaderSize + body.length))
  have hshort : (zeros (getPaddingSize (chunkHeaderSize + body.length))).length < 4 := by
    rw [length_zeros]
    exact getPaddingSize_lt _
  have hlength := length_marshalValue hbody
  cases c with
  | init d =>
    have h := unmarshalInit_marshal hc hbody rfl
    obtain ⟨isAck, _, _, _, _, _, _⟩ := d
    cases isAck
    · exact h
    · exact h
  | abort errorCauses =>
    cases hbody
    have h := @errorCauses_marshal abort _ _ hc rfl htail .errChunkTypeNotAbort
    rw [if_pos hshort] at h
    exact iff_of_true h trivial
  | error errorCauses =>
    cases hbody
    have h := @errorCauses_marshal error _ _ hc rfl htail .errChunkTypeNotCtError
    rw [if_pos hshort] at h
    exact iff_of_true h trivial
  | forwardTsn d =>
    have hnone : zeros (getPaddingSize (chunkHeaderSize + body.length)) = [] := by
      have hmod : (chunkHeaderSize + (newCumulativeTsnLength +
        forwardTsnStreamLength * d.streams.length)) % 4 = 0 := by
        unfold chunkHeaderSize newCumulativeTsnLength forwardTsnStreamLength
        omega
      have hpad := getPaddingSize_add hmod 0
      rw [hlength]
      exact congrArg zeros hpad
    have h := unmarshalForwardTsn_marshal hc hbody htail
    rw [if_pos hnone] at h
    exact iff_of_true h trivial
  | shutdown cumulativeTsnAck =>
    have hnone : zeros (getPaddingSize (chunkHeaderSize + body.length)) = [] := by
      rw [hlength]
      show zeros (getPaddingSize 8) = []
      decide
    have h := unmarshalShutdown_marshal hc hbody htail
    rw [if_pos hnone] at h
    exact iff_of_true h trivial
  | _ => exact unmarshal_marshal_iff hc hbody htail rfl rfl

end

end Chunk

end Sctp
