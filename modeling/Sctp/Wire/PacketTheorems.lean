import Sctp.Wire.Packet
import Sctp.Wire.ChunkTheorems

/-!
# When parsing a packet panics

The chunk loop decodes one chunk after the other, so a malformed chunk makes the parser
panic when the chunks before it decode. On every other packet the parser comes back.
-/

namespace Sctp

open Outcome

namespace Packet

/-- Where the chunk loop comes to stand when it starts at `offset`. -/
inductive ChunkStart (raw : Bytes) : ℕ → ℕ → Prop
  | here (offset : ℕ) : ChunkStart raw offset offset
  | next {offset o : ℕ} {ct : ChunkType} {c : Chunk} (typ : raw[offset]? = some ct)
      (room : offset + chunkHeaderSize ≤ raw.length)
      (decoded : Chunk.unmarshal ct (raw.drop offset) = .ok c)
      (rest : ChunkStart raw (offset + advance c) o) :
      ChunkStart raw offset o

/-- The packet has a header, and the checksum in it is the one of its bytes. -/
def ChecksumOk (crc : Bytes → U32) (raw : Bytes) : Prop :=
  packetHeaderSize ≤ raw.length ∧
    (Bytes.getU32LE (raw.drop 8) : Outcome Error _) =
      .ok (generatePacketChecksum crc raw, raw.drop packetHeaderSize)

/-- The chunk loop stands at a malformed chunk. -/
def MalformedAt (raw : Bytes) (o : ℕ) : Prop :=
  o + chunkHeaderSize ≤ raw.length ∧ Chunk.Malformed (raw.drop o)

/-- One round of the chunk loop, with a chunk header's worth of bytes left. -/
theorem unmarshalChunks_eq_of_room {raw : Bytes} {offset : ℕ} {ct : ChunkType}
    (hct : raw[offset]? = some ct) (room : offset + chunkHeaderSize ≤ raw.length) :
    unmarshalChunks raw offset =
      (do
        let c ← Chunk.unmarshal ct (raw.drop offset)
        let chunks ← unmarshalChunks raw (offset + advance c)
        .ok (c :: chunks)) := by
  have hne : offset ≠ raw.length := by
    unfold chunkHeaderSize at room
    omega
  have hindex : (raw.index offset : Outcome Error Byte) = .ok ct := by
    unfold Bytes.index
    rw [hct]
  have hslice : (raw.slice offset raw.length : Outcome Error Bytes) = .ok (raw.drop offset) := by
    unfold Bytes.slice
    rw [if_pos ⟨by omega, le_refl _⟩, List.take_length]
  rw [unmarshalChunks, if_neg hne, if_neg (Nat.not_lt.mpr room), hindex, ok_bind, hslice, ok_bind]

theorem unmarshalChunks_returns_iff (raw : Bytes) (offset : ℕ) :
    (unmarshalChunks raw offset).Returns ↔
      ∀ o, ChunkStart raw offset o → ¬ MalformedAt raw o := by
  induction offset using unmarshalChunks.induct raw with
  | case1 =>
    rw [unmarshalChunks, if_pos rfl]
    refine iff_of_true (returns_ok _) ?_
    intro o walk hm
    have hroom := hm.1
    unfold chunkHeaderSize at hroom
    cases walk with
    | here => omega
    | next _ room =>
      unfold chunkHeaderSize at room
      omega
  | case2 offset hne hend =>
    rw [unmarshalChunks, if_neg hne, if_pos hend]
    refine iff_of_true (returns_err _) ?_
    intro o walk hm
    cases walk with
    | here => exact absurd hm.1 (Nat.not_le.mpr hend)
    | next _ room => exact absurd room (Nat.not_le.mpr hend)
  | case3 offset hne hroom ih =>
    have room : offset + chunkHeaderSize ≤ raw.length := Nat.not_lt.mp hroom
    have hlt : offset < raw.length := by
      unfold chunkHeaderSize at room
      omega
    have hct : raw[offset]? = some raw[offset] := List.getElem?_eq_getElem hlt
    have hhead : (raw.drop offset)[0]? = some raw[offset] := by
      rw [List.getElem?_drop, Nat.add_zero, hct]
    rw [unmarshalChunks_eq_of_room hct room, returns_bind, Chunk.unmarshal_returns_iff hhead]
    constructor
    · intro ⟨hwell, hrest⟩ o walk
      cases walk with
      | here => exact fun hm => hwell hm.2
      | next typ _ decoded rest =>
        rw [hct, Option.some_inj] at typ
        subst typ
        exact (ih _).mp (returns_bind.mp (hrest _ decoded)).1 o rest
    · intro hall
      refine ⟨fun hm => hall offset (.here _) ⟨room, hm⟩, ?_⟩
      intro c decoded
      refine returns_bind.mpr ⟨?_, fun _ _ => returns_ok _⟩
      exact (ih c).mpr fun o walk => hall o (.next hct room decoded walk)

/-- The header of a packet that is long enough is read whole; what happens then depends on
the checksum. -/
theorem unmarshal_eq_of_long (crc : Bytes → U32) {raw : Bytes}
    (hlen : packetHeaderSize ≤ raw.length) :
    ∃ mk : List Chunk → Packet, ∃ theirChecksum : U32,
      (Bytes.getU32LE (raw.drop 8) : Outcome Error _) =
        .ok (theirChecksum, raw.drop packetHeaderSize) ∧
      unmarshal crc raw =
        (if theirChecksum ≠ generatePacketChecksum crc raw then
          .err .errChecksumMismatch
        else do
          let chunks ← unmarshalChunks raw packetHeaderSize
          .ok (mk chunks)) := by
  match raw, hlen with
  | b0 :: b1 :: b2 :: b3 :: b4 :: b5 :: b6 :: b7 :: b8 :: b9 :: b10 :: b11 :: rest, hlen =>
    refine ⟨fun chunks =>
      { sourcePort := b0 ++ b1, destinationPort := b2 ++ b3,
        verificationTag := b4 ++ b5 ++ b6 ++ b7, chunks }, b11 ++ b10 ++ b9 ++ b8, rfl, ?_⟩
    rw [unmarshal, if_neg (Nat.not_lt.mpr hlen)]
    rfl

/-- **When `Packet::unmarshal` comes back**: unless the checksum is right and the chunk loop
reaches a malformed chunk. -/
theorem packetUnmarshal_returns_iff (crc : Bytes → U32) (raw : Bytes) :
    (unmarshal crc raw).Returns ↔
      (ChecksumOk crc raw → ∀ o, ChunkStart raw packetHeaderSize o → ¬ MalformedAt raw o) := by
  by_cases hlen : packetHeaderSize ≤ raw.length
  · obtain ⟨mk, theirChecksum, hread, heq⟩ := unmarshal_eq_of_long crc hlen
    rw [heq]
    by_cases hsum : theirChecksum = generatePacketChecksum crc raw
    · have hok : ChecksumOk crc raw := ⟨hlen, hsum ▸ hread⟩
      rw [if_neg (not_not_intro hsum), returns_bind, unmarshalChunks_returns_iff]
      constructor
      · intro ⟨hall, _⟩ _
        exact hall
      · intro hall
        exact ⟨hall hok, fun _ _ => returns_ok _⟩
    · rw [if_pos hsum]
      refine iff_of_true (returns_err _) ?_
      intro hok
      have heq := hread.symm.trans hok.2
      simp only [ok.injEq, Prod.mk.injEq] at heq
      exact absurd heq.1 hsum
  · rw [unmarshal, if_pos (Nat.not_le.mp hlen)]
    exact iff_of_true (returns_err _) fun hok => absurd hok.1 hlen

/-- A packet whose only chunk is a FORWARD TSN of length four, followed by four bytes. -/
def shortForwardTsnPacket : Bytes :=
  [0x13, 0x88, 0x13, 0x88, 0, 0, 0, 1, 0xf2, 0xab, 0xe1, 0xa7, 0xc0, 0, 0, 4, 0, 0, 0, 1]

/-- The parser panics on it; `0xa7e1abf2` is the CRC-32C of the packet with its checksum
field zeroed. -/
theorem not_returns_shortForwardTsnPacket :
    ¬ (unmarshal (fun _ => 0xa7e1abf2) shortForwardTsnPacket).Returns := by
  decide +kernel

end Packet

end Sctp
