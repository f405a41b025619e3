import Sctp.Wire.ChunkSpanTheorems
import Sctp.Wire.PacketTheorems

/-!
# When the chunk loop follows the length fields

The walk of the chunk loop is the walk over the length fields as long as every chunk on it is
whole, and it leaves the walk at the first that is not.
-/

namespace Sctp

open Outcome

namespace Packet

/-- The chunks a packet comes to were decoded where `startOffsets` says. -/
theorem unmarshalChunks_decoded {raw : Bytes} {offset : ℕ} {cs : List Chunk}
    (h : unmarshalChunks raw offset = .ok cs) :
    List.Forall₂ (fun o c => ∃ ct, raw[o]? = some ct ∧ Chunk.unmarshal ct (raw.drop o) = .ok c)
      (startOffsets offset cs) cs := by
  induction offset using unmarshalChunks.induct raw generalizing cs with
  | case1 =>
    rw [unmarshalChunks, if_pos rfl] at h
    cases h
    exact .nil
  | case2 offset hne hend =>
    rw [unmarshalChunks, if_neg hne, if_pos hend] at h
    cases h
  | case3 offset hne hroom ih =>
    have room : offset + chunkHeaderSize ≤ raw.length := Nat.not_lt.mp hroom
    have hlt : offset < raw.length := by
      unfold chunkHeaderSize at room
      omega
    have hct : raw[offset]? = some raw[offset] := List.getElem?_eq_getElem hlt
    rw [unmarshalChunks_eq_of_room hct room] at h
    obtain ⟨c, hc, h⟩ := bind_eq_ok.mp h
    obtain ⟨cs', hcs, h⟩ := bind_eq_ok.mp h
    cases h
    exact .cons ⟨_, hct, hc⟩ (ih c hcs)

/-- Where the loop goes on, a chunk header or the end of the packet follows. -/
theorem room_of_unmarshalChunks {raw : Bytes} {offset : ℕ} {cs : List Chunk}
    (h : unmarshalChunks raw offset = .ok cs) :
    (offset = raw.length ∧ cs = []) ∨ (offset + chunkHeaderSize ≤ raw.length ∧ cs ≠ []) := by
  unfold unmarshalChunks at h
  split at h
  · rename_i hdone
    cases h
    exact .inl ⟨hdone, rfl⟩
  · split at h
    · cases h
    · rename_i hroom
      obtain ⟨_, -, h⟩ := bind_eq_ok.mp h
      obtain ⟨_, -, h⟩ := bind_eq_ok.mp h
      obtain ⟨c, -, h⟩ := bind_eq_ok.mp h
      obtain ⟨cs', -, h⟩ := bind_eq_ok.mp h
      cases h
      exact .inr ⟨Nat.not_lt.mp hroom, List.cons_ne_nil c cs'⟩

theorem startOffsets_head (offset : ℕ) (cs : List Chunk) :
    (startOffsets offset cs).head? = if cs = [] then none else some offset := by
  cases cs <;> rfl

theorem wireOffsets_head (raw : Bytes) (offset : ℕ) :
    (wireOffsets raw offset).head? =
      if offset + chunkHeaderSize ≤ raw.length then some offset else none := by
  unfold wireOffsets
  split
  · split <;> rfl
  · rfl

/-- The two walks go on from the same place or part. -/
theorem eq_of_walks_eq {raw : Bytes} {offset o : ℕ} {cs : List Chunk}
    (h : unmarshalChunks raw offset = .ok cs) (hend : o < raw.length + chunkHeaderSize)
    (hmod : o % 4 = offset % 4)
    (heq : startOffsets offset cs = wireOffsets raw o) : offset = o := by
  have hheads := congrArg List.head? heq
  rw [startOffsets_head, wireOffsets_head] at hheads
  rcases room_of_unmarshalChunks h with ⟨hdone, hnil⟩ | ⟨_, hcons⟩
  · rw [if_pos hnil] at hheads
    split at hheads
    · cases hheads
    · unfold chunkHeaderSize at *
      omega
  · rw [if_neg hcons] at hheads
    split at hheads
    · exact Option.some_inj.mp hheads
    · cases hheads

/-- The chunk loop keeps to the walk over the length fields exactly while the chunks on it are
whole. -/
theorem startOffsets_eq_iff {raw : Bytes} {offset : ℕ} {cs : List Chunk}
    (h : unmarshalChunks raw offset = .ok cs) :
    startOffsets offset cs = wireOffsets raw offset ↔
      ∀ o ∈ wireOffsets raw offset, Chunk.Whole (raw.drop o) := by
  induction offset using unmarshalChunks.induct raw generalizing cs with
  | case1 =>
    rw [unmarshalChunks, if_pos rfl] at h
    cases h
    have hnil : wireOffsets raw raw.length = [] := by
      rw [wireOffsets, if_neg (by unfold chunkHeaderSize; omega)]
    rw [hnil]
    exact iff_of_true rfl (List.forall_mem_nil _)
  | case2 offset hne hend =>
    rw [unmarshalChunks, if_neg hne, if_pos hend] at h
    cases h
  | case3 offset hne hroom ih =>
    have room : offset + chunkHeaderSize ≤ raw.length := Nat.not_lt.mp hroom
    have hlt : offset < raw.length := by
      unfold chunkHeaderSize at room
      omega
    have hct : raw[offset]? = some raw[offset] := List.getElem?_eq_getElem hlt
    rw [unmarshalChunks_eq_of_room hct room] at h
    obtain ⟨c, hc, h⟩ := bind_eq_ok.mp h
    obtain ⟨cs', hcs, h⟩ := bind_eq_ok.mp h
    cases h
    obtain ⟨header, hh⟩ := Chunk.exists_header hc
    have hstop := (ChunkHeader.unmarshal_eq_ok hh).2
    rw [← Chunk.lengthField_eq hh, List.length_drop] at hstop
    have hge : chunkHeaderSize ≤ Chunk.lengthField (raw.drop offset) := by
      rw [Chunk.lengthField_eq hh]
      exact Nat.le_add_right _ _
    have hhead : (raw.drop offset)[0]? = some raw[offset] := by
      rw [List.getElem?_drop, Nat.add_zero, hct]
    have hwhole := Chunk.advance_eq_iff hhead hc (by
      rw [List.length_drop]
      rcases room_of_unmarshalChunks hcs with ⟨hdone, -⟩ | ⟨hnext, -⟩
      · omega
      · omega)
    rw [wireOffsets, if_pos room, if_pos hge, startOffsets, List.cons_inj_right,
      List.forall_mem_cons, ← hwhole]
    by_cases hadvance : advance c = padded (Chunk.lengthField (raw.drop offset))
    · rw [← hadvance, ih c hcs]
      exact (and_iff_right rfl).symm
    · refine iff_of_false ?_ fun hall => hadvance hall.1
      intro heq
      have hlt' := padded_lt (Chunk.lengthField (raw.drop offset))
      have hmod := padded_mod (Chunk.lengthField (raw.drop offset))
      have hmod' := padded_mod (chunkHeaderSize + c.valueLength)
      rw [← advance_eq] at hmod'
      have hsame := eq_of_walks_eq hcs
        (by unfold chunkHeaderSize; omega) (by omega) heq
      omega

theorem unmarshalChunks_of_unmarshal {crc : Bytes → U32} {raw : Bytes} {p : Packet}
    (h : unmarshal crc raw = .ok p) : unmarshalChunks raw packetHeaderSize = .ok p.chunks := by
  unfold unmarshal at h
  split at h
  · cases h
  · obtain ⟨⟨_, reader1⟩, -, h⟩ := bind_eq_ok.mp h
    obtain ⟨⟨_, reader2⟩, -, h⟩ := bind_eq_ok.mp h
    obtain ⟨⟨_, reader3⟩, -, h⟩ := bind_eq_ok.mp h
    obtain ⟨⟨theirChecksum, _⟩, -, h⟩ := bind_eq_ok.mp h
    dsimp only at h
    split at h
    · cases h
    · obtain ⟨chunks, hchunks, h⟩ := bind_eq_ok.mp h
      cases h
      exact hchunks

/-- The chunks of an accepted packet were decoded where `startOffsets` says. -/
theorem unmarshal_decoded {crc : Bytes → U32} {raw : Bytes} {p : Packet}
    (h : unmarshal crc raw = .ok p) :
    List.Forall₂ (fun o c => ∃ ct, raw[o]? = some ct ∧ Chunk.unmarshal ct (raw.drop o) = .ok c)
      (startOffsets packetHeaderSize p.chunks) p.chunks :=
  unmarshalChunks_decoded (unmarshalChunks_of_unmarshal h)

/-- Each chunk on the walk over the length fields ends where the next begins, or before. -/
theorem wireOffsets_pairwise (raw : Bytes) (offset : ℕ) :
    (wireOffsets raw offset).Pairwise
        (fun o o' => o + Chunk.lengthField (raw.drop o) ≤ o') ∧
      ∀ o ∈ wireOffsets raw offset, offset ≤ o := by
  induction offset using wireOffsets.induct raw with
  | case1 offset room hlong ih =>
    rw [wireOffsets, if_pos room, if_pos hlong]
    have hle := le_padded (Chunk.lengthField (raw.drop offset))
    constructor
    · refine List.pairwise_cons.mpr ⟨?_, ih.1⟩
      intro o ho
      have := ih.2 o ho
      omega
    · intro o ho
      rcases List.mem_cons.mp ho with rfl | ho
      · exact le_refl o
      · have := ih.2 o ho
        omega
  | case2 offset room hshort =>
    rw [wireOffsets, if_pos room, if_neg hshort]
    exact ⟨List.pairwise_singleton _ _, fun o ho => (List.mem_singleton.mp ho).ge⟩
  | case3 offset room =>
    rw [wireOffsets, if_neg room]
    exact ⟨.nil, List.forall_mem_nil _⟩

/-- Where the chunks follow the length fields, none starts inside the declared extent of one
before it. -/
theorem FollowsLengths.pairwise {raw : Bytes} {p : Packet} (h : FollowsLengths raw p) :
    (startOffsets packetHeaderSize p.chunks).Pairwise
      (fun o o' => o + Chunk.lengthField (raw.drop o) ≤ o') := by
  unfold FollowsLengths at h
  rw [h]
  exact (wireOffsets_pairwise raw packetHeaderSize).1

/-- **When the chunks of an accepted packet follow its length fields**: exactly when every
chunk on the walk over the length fields is whole. -/
theorem followsLengths_iff {crc : Bytes → U32} {raw : Bytes} {p : Packet}
    (h : unmarshal crc raw = .ok p) :
    FollowsLengths raw p ↔
      ∀ o ∈ wireOffsets raw packetHeaderSize, Chunk.Whole (raw.drop o) :=
  startOffsets_eq_iff (unmarshalChunks_of_unmarshal h)

/-- A COOKIE ACK and a DATA chunk with three bytes of padding. -/
def paddedDataPacket : Bytes :=
  [0x13, 0x88, 0x13, 0x88, 0, 0, 0, 1, 0x4d, 0xd3, 0x88, 0xc9, 0x0b, 0, 0, 4,
    0, 3, 0, 17, 0, 0, 0, 1, 0, 0, 0, 0, 0, 0, 0, 53, 7, 0, 0, 0]

/-- `0xc988d34d` is the CRC-32C of the packet with its checksum field zeroed. -/
theorem followsLengths_paddedDataPacket :
    ∃ p, unmarshal (fun _ => 0xc988d34d) paddedDataPacket = .ok p ∧
      (FollowsLengths paddedDataPacket p ↔
        ∀ o ∈ wireOffsets paddedDataPacket packetHeaderSize,
          Chunk.Whole (paddedDataPacket.drop o)) := by
  have hok : unmarshal (fun _ => 0xc988d34d) paddedDataPacket =
      .ok
        { sourcePort := 5000
          destinationPort := 5000
          verificationTag := 1
          chunks :=
            [.cookieAck,
              .payloadData
                { beginningFragment := true
                  endingFragment := true
                  tsn := 1
                  payloadType := .binary
                  userData := [7] }] } := by
    decide +kernel
  exact ⟨_, hok, followsLengths_iff hok⟩

/-- A packet whose only chunk is a COOKIE ACK of length eight; the four bytes it declares
after its header read as a COOKIE ACK of length four. -/
def longCookieAckPacket : Bytes :=
  [0x13, 0x88, 0x13, 0x88, 0, 0, 0, 1, 0xf5, 0x3e, 0x2a, 0x94, 0x0b, 0, 0, 8, 0x0b, 0, 0, 4]

/-- It is accepted as two chunks, where the length fields make it one; `0x942a3ef5` is the
CRC-32C of the packet with its checksum field zeroed. -/
theorem not_followsLengths_longCookieAckPacket :
    ∃ p, unmarshal (fun _ => 0x942a3ef5) longCookieAckPacket = .ok p ∧
      startOffsets packetHeaderSize p.chunks = [12, 16] ∧
      wireOffsets longCookieAckPacket packetHeaderSize = [12] ∧
      ¬ FollowsLengths longCookieAckPacket p := by
  refine ⟨{
    sourcePort := 5000
    destinationPort := 5000
    verificationTag := 1
    chunks := [.cookieAck, .cookieAck] }, ?_⟩
  unfold FollowsLengths
  decide +kernel

end Packet

end Sctp
