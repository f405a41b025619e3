import Sctp.Wire.ChunkRoundTripTheorems
import Sctp.Wire.PacketTheorems

/-!
# Packets come back as they were written

Alone in its packet a chunk comes back unless it is an INIT whose last parameter is a bare
header. Bundled with others it also must not be of a kind whose decoder reads on to the end
of the packet.
-/

namespace Sctp

open Outcome Bytes

namespace Packet

/-! ## The chunks of a packet -/

theorem Chunk.marshal_eq {c : Chunk} {body : Bytes} (h : c.marshalValue = .ok body) :
    c.marshal = .ok (c.header.marshal ++ body) := by
  unfold Chunk.marshal
  rw [h]
  rfl

/-- What a chunk and its padding take up in a packet. -/
def chunkBytes (c : Chunk) (body : Bytes) : Bytes :=
  c.header.marshal ++ (body ++ zeros (getPaddingSize (chunkHeaderSize + body.length)))

theorem length_chunkBytes_mod (c : Chunk) (body : Bytes) : (chunkBytes c body).length % 4 = 0 := by
  have hmod := add_getPaddingSize_mod (chunkHeaderSize + body.length)
  unfold chunkBytes
  rw [List.length_append, List.length_append, length_zeros, ChunkHeader.length_marshal]
  unfold chunkHeaderSize at hmod ⊢
  omega

/-- Every chunk starts at a multiple of four, so the padding is that of the chunk. -/
theorem marshalChunks_cons {raw body : Bytes} {c : Chunk} (hraw : raw.length % 4 = 0)
    (h : c.marshalValue = .ok body) (cs : List Chunk) :
    marshalChunks raw (c :: cs) = marshalChunks (raw ++ chunkBytes c body) cs := by
  have hpad : getPaddingSize (raw ++ (c.header.marshal ++ body)).length =
      getPaddingSize (chunkHeaderSize + body.length) := by
    rw [List.length_append, getPaddingSize_add hraw, List.length_append,
      ChunkHeader.length_marshal]
    rfl
  rw [marshalChunks, Chunk.marshal_eq h]
  show marshalChunks _ cs = _
  rw [hpad]
  unfold chunkBytes
  simp only [List.append_assoc]

/-- Well-formed chunks can be marshalled, one behind the other. -/
theorem exists_marshalChunks {cs : List Chunk} (hcs : ∀ c ∈ cs, c.WellFormed) {raw : Bytes}
    (hraw : raw.length % 4 = 0) :
    ∃ out, marshalChunks raw cs = .ok (raw ++ out) ∧ out.length % 4 = 0 ∧
      marshalChunks [] cs = .ok out := by
  induction cs generalizing raw with
  | nil => exact ⟨[], by rw [List.append_nil]; rfl, rfl, rfl⟩
  | cons c cs ih =>
    obtain ⟨body, hbody⟩ := Chunk.exists_marshalValue (hcs c List.mem_cons_self)
    have hmod := length_chunkBytes_mod c body
    have htail : ∀ c' ∈ cs, c'.WellFormed := fun c' h => hcs c' (List.mem_cons_of_mem _ h)
    have hnext : (raw ++ chunkBytes c body).length % 4 = 0 := by
      rw [List.length_append]
      omega
    obtain ⟨out, hout, hlen, halone⟩ := ih htail hnext
    obtain ⟨out', hout', _, halone'⟩ := ih htail hmod
    rw [halone] at halone'
    cases halone'
    refine ⟨chunkBytes c body ++ out, ?_, ?_, ?_⟩
    · rw [marshalChunks_cons hraw hbody, hout, List.append_assoc]
    · rw [List.length_append]
      omega
    · rw [marshalChunks_cons rfl hbody]
      exact hout'

theorem length_chunkBytes {c : Chunk} {body : Bytes} (h : c.marshalValue = .ok body) :
    (chunkBytes c body).length = advance c.wire := by
  have hlen := Chunk.length_marshalValue h
  have hwire : c.wire.valueLength = c.valueLength := by
    cases c <;> rfl
  have hpad : getPaddingSize (chunkHeaderSize + body.length) = getPaddingSize c.valueLength := by
    rw [hlen]
    exact getPaddingSize_add rfl _
  unfold chunkBytes advance
  rw [hpad, hwire, List.length_append, List.length_append, length_zeros, hlen, ← Nat.add_assoc]
  rfl

/-- One round of the chunk loop, at a chunk that was put there. -/
theorem unmarshalChunks_cons_iff {raw pre body rest : Bytes} {c : Chunk} {cs : List Chunk}
    {offset : ℕ} (hraw : raw = pre ++ (chunkBytes c body ++ rest)) (hoffset : offset = pre.length)
    (hbody : c.marshalValue = .ok body) :
    unmarshalChunks raw offset = .ok (c.wire :: cs) ↔
      Chunk.unmarshal c.typ (chunkBytes c body ++ rest) = .ok c.wire ∧
        unmarshalChunks raw (offset + (chunkBytes c body).length) = .ok cs := by
  have hdrop : raw.drop offset = chunkBytes c body ++ rest := by
    rw [hraw, hoffset, List.drop_left]
  have htyp : raw[offset]? = some c.typ := by
    have hhead : (chunkBytes c body ++ rest)[0]? = some c.header.typ := rfl
    rw [← Nat.add_zero offset, ← List.getElem?_drop, hdrop, hhead, Chunk.header_typ]
  have hroom : offset + chunkHeaderSize ≤ raw.length := by
    have hlong : 4 ≤ (chunkBytes c body ++ rest).length := by
      unfold chunkBytes
      rw [List.append_assoc, List.length_append, ChunkHeader.length_marshal]
      exact Nat.le_add_right _ _
    rw [hraw, List.length_append, ← hoffset]
    exact Nat.add_le_add_left hlong offset
  rw [unmarshalChunks_eq_of_room htyp hroom, hdrop, length_chunkBytes hbody]
  constructor
  · intro h
    obtain ⟨c', hc', h⟩ := bind_eq_ok.mp h
    obtain ⟨cs', hcs', h⟩ := bind_eq_ok.mp h
    cases h
    exact ⟨hc', hcs'⟩
  · intro ⟨hc, hcs⟩
    rw [hc, ok_bind, hcs, ok_bind]

/-- What the chunk loop makes of a list of chunks: all of them come back if no decoder but
the last chunk's reads on. -/
theorem unmarshalChunks_marshalChunks_iff {cs : List Chunk} {raw pre out : Bytes} {offset : ℕ}
    (hcs : ∀ c ∈ cs, c.WellFormed ∧ c.isInit = false ∧ c.Recoverable)
    (hout : marshalChunks [] cs = .ok out) (hraw : raw = pre ++ out) (hoffset : offset = pre.length) :
    unmarshalChunks raw offset = .ok (cs.map Chunk.wire) ↔
      ∀ c ∈ cs.dropLast, c.readsOn = false := by
  induction cs generalizing pre out offset with
  | nil =>
    cases hout
    rw [List.append_nil] at hraw
    have hnone : ∀ c ∈ ([] : List Chunk).dropLast, c.readsOn = false :=
      fun _ h => absurd h List.not_mem_nil
    refine iff_of_true ?_ hnone
    rw [unmarshalChunks, if_pos (by rw [hraw, hoffset])]
    rfl
  | cons c cs ih =>
    obtain ⟨hc, hinit, hrecover⟩ := hcs c List.mem_cons_self
    have htail : ∀ c' ∈ cs, c'.WellFormed ∧ c'.isInit = false ∧ c'.Recoverable :=
      fun c' h => hcs c' (List.mem_cons_of_mem _ h)
    obtain ⟨body, hbody⟩ := Chunk.exists_marshalValue hc
    obtain ⟨rest, hall, _, hrest⟩ := exists_marshalChunks (fun c' h => (htail c' h).1)
      (length_chunkBytes_mod c body)
    rw [marshalChunks_cons rfl hbody, List.nil_append, hall] at hout
    cases hout
    have hnext := @ih (pre ++ chunkBytes c body) rest (offset + (chunkBytes c body).length) htail
      hrest (by rw [hraw, List.append_assoc]) (by rw [hoffset, List.length_append])
    rw [List.map_cons, unmarshalChunks_cons_iff hraw hoffset hbody, hnext]
    cases cs with
    | nil =>
      -- the last chunk
      cases hrest
      rw [List.append_nil]
      have hnone : ∀ d ∈ ([] : List Chunk), d.readsOn = false :=
        fun _ h => absurd h List.not_mem_nil
      have hdecoded := (Chunk.unmarshal_marshal_last_iff hc hbody).mpr hrecover
      exact iff_of_true ⟨hdecoded, hnone⟩ hnone
    | cons d ds =>
      obtain ⟨bodyD, hbodyD⟩ := Chunk.exists_marshalValue (htail d List.mem_cons_self).1
      obtain ⟨restD, hallD, _, _⟩ := exists_marshalChunks
        (fun c' h => (htail c' (List.mem_cons_of_mem _ h)).1) (length_chunkBytes_mod d bodyD)
      rw [marshalChunks_cons rfl hbodyD, List.nil_append, hallD] at hrest
      have hlong : 4 ≤ (zeros (getPaddingSize (chunkHeaderSize + body.length)) ++ rest).length := by
        cases hrest
        unfold chunkBytes
        simp only [List.length_append, ChunkHeader.length_marshal]
        omega
      have hsplit : chunkBytes c body ++ rest = c.header.marshal ++ (body ++
          (zeros (getPaddingSize (chunkHeaderSize + body.length)) ++ rest)) := by
        unfold chunkBytes
        simp only [List.append_assoc]
      rw [hsplit, List.dropLast_cons_cons, List.forall_mem_cons]
      refine and_congr_left fun _ => ?_
      cases hreads : c.readsOn with
      | true =>
        obtain ⟨e, he⟩ := Chunk.unmarshal_marshal_of_readsOn hc hbody hreads hlong
        rw [he]
        exact iff_of_false (fun h => by cases h) (fun h => by cases h)
      | false =>
        exact iff_of_true ((Chunk.unmarshal_marshal_iff hc hbody (paddingOrMore_of_le hlong) hinit
          hreads).mpr hrecover) rfl

/-! ## The packet -/

/-- The header is read back and the checksum is the same: both ends feed the ports, the tag,
four zeroes and the chunks to the CRC. -/
theorem roundTrips_iff_chunks (crc : Bytes → U32) {p : Packet} (hp : ∀ c ∈ p.chunks, c.WellFormed) :
    ∃ pre out, pre.length = packetHeaderSize ∧ marshalChunks [] p.chunks = .ok out ∧
      (RoundTrips crc p ↔
        unmarshalChunks (pre ++ out) packetHeaderSize = .ok (p.chunks.map Chunk.wire)) := by
  obtain ⟨out, hout, _, _⟩ := @exists_marshalChunks p.chunks hp [] rfl
  rw [List.nil_append] at hout
  obtain ⟨head, hhead⟩ : ∃ head, head = putU16 p.sourcePort ++ (putU16 p.destinationPort ++
    putU32 p.verificationTag) := ⟨_, rfl⟩
  have height : head.length = 8 := by rw [hhead]; rfl
  obtain ⟨checksum, hsum⟩ : ∃ checksum, checksum = crc (head ++ [0, 0, 0, 0] ++ out) := ⟨_, rfl⟩
  obtain ⟨pre, hpre⟩ : ∃ pre, pre = head ++ putU32LE checksum := ⟨_, rfl⟩
  have hlen : pre.length = packetHeaderSize := by
    rw [hpre, List.length_append, height]
    rfl
  have hmarshal : p.marshal crc = .ok (pre ++ out) := by
    unfold marshal marshalTo
    rw [hout, List.nil_append, ← hhead]
    show Except.ok (head ++ putU32LE (crc (head ++ [0, 0, 0, 0] ++ out)) ++ out) = _
    rw [← hsum, hpre]
  -- the decoder feeds the CRC the same bytes, with zeroes for the checksum
  have hchecksum : generatePacketChecksum crc (pre ++ out) = checksum := by
    unfold generatePacketChecksum
    have htake : (pre ++ out).take 8 = head := by
      rw [hpre, List.append_assoc]
      exact List.take_left' height
    have hdrop : (pre ++ out).drop 12 = out := List.drop_left' hlen
    rw [htake, hdrop, hsum]
  -- the header is read back, so the chunks decide
  have hunmarshal : unmarshal crc (pre ++ out) = (do
      let chunks ← unmarshalChunks (pre ++ out) packetHeaderSize
      .ok { p with chunks }) := by
    have hlong : ¬ (pre ++ out).length < packetHeaderSize := by
      rw [List.length_append, hlen]
      omega
    have hbytes : pre ++ out = putU16 p.sourcePort ++ (putU16 p.destinationPort ++
        (putU32 p.verificationTag ++ (putU32LE checksum ++ out))) := by
      rw [hpre, hhead]
      simp only [List.append_assoc]
    unfold unmarshal
    rw [if_neg hlong, hchecksum]
    generalize unmarshalChunks (pre ++ out) packetHeaderSize = loop
    rw [hbytes, getU16_putU16, ok_bind]
    dsimp only
    rw [getU16_putU16, ok_bind]
    dsimp only
    rw [getU32_putU32, ok_bind]
    dsimp only
    rw [getU32LE_putU32LE, ok_bind]
    dsimp only
    rw [if_neg (not_not_intro rfl)]
  refine ⟨pre, out, hlen, hout, ?_⟩
  unfold RoundTrips
  constructor
  · intro ⟨raw, hraw, h⟩
    rw [hmarshal] at hraw
    cases hraw
    rw [hunmarshal] at h
    obtain ⟨chunks, hchunks, h⟩ := bind_eq_ok.mp h
    injection h with h
    rw [hchunks]
    exact congrArg Outcome.ok (congrArg Packet.chunks h :)
  · intro h
    refine ⟨_, hmarshal, ?_⟩
    rw [hunmarshal, h, ok_bind]
    rfl

/-- A packet of one chunk comes back when its chunk does. -/
theorem roundTrips_iff_of_single (crc : Bytes → U32) {p : Packet} {c : Chunk}
    (hp : p.chunks = [c]) (hc : c.WellFormed) : RoundTrips crc p ↔ c.Recoverable := by
  obtain ⟨pre, out, hlen, hout, hiff⟩ := roundTrips_iff_chunks crc (p := p)
    (by rw [hp]; exact List.forall_mem_singleton.mpr hc)
  obtain ⟨body, hbody⟩ := Chunk.exists_marshalValue hc
  rw [hp, marshalChunks_cons rfl hbody] at hout
  cases hout
  rw [hiff, hp]
  show unmarshalChunks _ _ = .ok (c.wire :: []) ↔ _
  rw [@unmarshalChunks_cons_iff _ pre body [] c [] packetHeaderSize (by rw [List.append_nil]; rfl)
    hlen.symm hbody, List.append_nil]
  have hend : unmarshalChunks (pre ++ ([] ++ chunkBytes c body))
      (packetHeaderSize + (chunkBytes c body).length) = .ok [] := by
    rw [unmarshalChunks, if_pos (by rw [List.length_append, hlen]; rfl)]
  rw [and_iff_left hend]
  exact Chunk.unmarshal_marshal_last_iff hc hbody

/-- Chunks that stop where they end come back in a bundle. -/
theorem roundTrips_iff_of_recoverable (crc : Bytes → U32) {p : Packet}
    (hp : ∀ c ∈ p.chunks, c.WellFormed ∧ c.isInit = false ∧ c.Recoverable) :
    RoundTrips crc p ↔ ∀ c ∈ p.chunks.dropLast, c.readsOn = false := by
  obtain ⟨pre, out, hlen, hout, hiff⟩ := roundTrips_iff_chunks crc (fun c hc => (hp c hc).1)
  rw [hiff]
  exact unmarshalChunks_marshalChunks_iff hp hout rfl hlen.symm

/-- Packets that come back are received whole, one after the other. -/
theorem receivedChunks_of_roundTrips {crc : Bytes → U32} {ps : List Packet}
    (h : ∀ p ∈ ps, RoundTrips crc p) :
    receivedChunks crc ps = .ok (ps.flatMap fun p => p.chunks.map Chunk.wire) := by
  induction ps with
  | nil => rfl
  | cons p ps ih =>
    obtain ⟨raw, hraw, hback⟩ := h p List.mem_cons_self
    have hrest := ih fun q hq => h q (List.mem_cons_of_mem _ hq)
    rw [receivedChunks, hraw]
    dsimp only
    rw [hback, ok_bind, hrest, ok_bind]
    rfl

/-! ## Single chunks -/

/-- **When a single chunk comes back**: unless it is an INIT whose last parameter is a bare
header, or it carries HMAC algorithms that its decoder refuses. -/
theorem roundTrips_single_iff (crc : Bytes → U32) (sourcePort destinationPort : U16)
    (verificationTag : U32) {c : Chunk} (hc : c.WellFormed) (hkind : Chunk.hasDecoder c.typ = true) :
    RoundTrips crc { sourcePort, destinationPort, verificationTag, chunks := [c] } ↔
      (∀ p ∈ c.params, p.KnownAlgorithms) ∧
        (c.isInit = true → ∀ p, c.params.getLast? = some p → 0 < p.valueLength) := by
  rw [roundTrips_iff_of_single crc rfl hc]
  cases c with
  | init d => exact and_congr_right' ⟨fun h _ => h, fun h => h rfl⟩
  | heartbeat params =>
    obtain ⟨info, rfl⟩ := hc.2
    exact iff_of_true trivial ⟨List.forall_mem_singleton.mpr trivial, nofun⟩
  | heartbeatAck params =>
    have hnone : ¬ Chunk.hasDecoder ctHeartbeatAck = true := by decide
    exact absurd hkind hnone
  | reconfig d =>
    show ((∀ p, d.paramA = some p → p.KnownAlgorithms) ∧
      ∀ p, d.paramB = some p → p.KnownAlgorithms) ↔
        (∀ p ∈ d.paramA.toList ++ d.paramB.toList, p.KnownAlgorithms) ∧ _
    have hnone : (Chunk.reconfig d).isInit = true → ∀ p,
        (Chunk.reconfig d).params.getLast? = some p → 0 < p.valueLength := nofun
    rw [List.forall_mem_append, and_iff_left hnone]
    simp only [Option.mem_toList]
  | _ => exact iff_of_true trivial ⟨nofun, nofun⟩

/-- An INIT with the parameters. -/
def initOfParams (params : List Param) : Chunk :=
  .init { initiateTag := 1, advertisedReceiverWindowCredit := 65535, numOutboundStreams := 1
          numInboundStreams := 1, initialTsn := 1, params }

theorem roundTrips_initOfParams :
    RoundTrips (fun _ => 0)
      { sourcePort := 5000, destinationPort := 5000, verificationTag := 0
        chunks := [initOfParams [.forwardTsnSupported, .random [1, 2, 3]]] } := by
  have hwell : (initOfParams [.forwardTsnSupported, .random [1, 2, 3]]).WellFormed :=
    ⟨by decide, List.forall_mem_cons.mpr ⟨trivial, List.forall_mem_singleton.mpr trivial⟩⟩
  refine (roundTrips_single_iff (fun _ => 0) 5000 5000 0 hwell (by decide)).mpr ⟨?_, ?_⟩
  · exact List.forall_mem_cons.mpr ⟨trivial, List.forall_mem_singleton.mpr trivial⟩
  · rintro _ p ⟨⟩
    decide

/-- With the parameters the other way round, the last one is not decoded, and the packet is
refused where the chunk loop takes it for a chunk. -/
theorem not_roundTrips_bareParam :
    (initOfParams [.random [1, 2, 3], .forwardTsnSupported]).WellFormed ∧
      ¬ RoundTrips (fun _ => 0)
        { sourcePort := 5000, destinationPort := 5000, verificationTag := 0
          chunks := [initOfParams [.random [1, 2, 3], .forwardTsnSupported]] } := by
  refine ⟨⟨by decide, List.forall_mem_cons.mpr ⟨trivial, List.forall_mem_singleton.mpr trivial⟩⟩, ?_⟩
  intro ⟨raw, hraw, h⟩
  have hbytes : raw = [0x13, 0x88, 0x13, 0x88, 0, 0, 0, 0, 0, 0, 0, 0, 1, 0, 0, 32, 0, 0, 0, 1,
      0, 0, 0xff, 0xff, 0, 1, 0, 1, 0, 0, 0, 1, 0x80, 2, 0, 7, 1, 2, 3, 0, 0xc0, 0, 0, 4] := by
    refine Except.ok.inj (hraw.symm.trans ?_)
    decide +kernel
  rw [hbytes] at h
  exact absurd h (by decide +kernel)

/-! ## Bundles -/

/-- **When a bundle comes back**, each of whose chunks comes back alone: unless a chunk before
the last one is an ABORT, an ERROR, a FORWARD TSN or a SHUTDOWN. -/
theorem roundTrips_bundle_iff (crc : Bytes → U32) {p : Packet}
    (hp : ∀ c ∈ p.chunks, c.WellFormed ∧ c.isInit = false ∧ RoundTrips crc { p with chunks := [c] }) :
    RoundTrips crc p ↔ ∀ c ∈ p.chunks.dropLast, c.readsOn = false := by
  refine roundTrips_iff_of_recoverable crc fun c hc => ?_
  obtain ⟨hwell, hinit, halone⟩ := hp c hc
  exact ⟨hwell, hinit, (roundTrips_iff_of_single crc rfl hwell).mp halone⟩

/-- What is bundled in the examples, with a FORWARD TSN in front of the DATA or behind it. -/
def forwardTsnChunk : Chunk := .forwardTsn { newCumulativeTsn := 7, streams := [⟨1, 2⟩] }

/-- A DATA chunk of three bytes. -/
def dataChunk : Chunk := .payloadData { tsn := 8, streamIdentifier := 1, userData := [1, 2, 3] }

/-- A packet with the chunks. -/
def bundleOf (chunks : List Chunk) : Packet :=
  { sourcePort := 5000, destinationPort := 5000, verificationTag := 1, chunks }

theorem wellFormed_bundled {c : Chunk} (hc : c = forwardTsnChunk ∨ c = dataChunk) :
    c.WellFormed ∧ c.isInit = false ∧ RoundTrips (fun _ => 0) (bundleOf [c]) := by
  rcases hc with rfl | rfl
  · have hwell : forwardTsnChunk.WellFormed := ⟨by decide, trivial⟩
    exact ⟨hwell, rfl, (roundTrips_iff_of_single _ rfl hwell).mpr trivial⟩
  · have hwell : dataChunk.WellFormed := ⟨by decide, trivial⟩
    exact ⟨hwell, rfl, (roundTrips_iff_of_single _ rfl hwell).mpr trivial⟩

theorem roundTrips_dataFirst :
    RoundTrips (fun _ => 0) (bundleOf [dataChunk, forwardTsnChunk]) := by
  refine (roundTrips_bundle_iff (fun _ => 0) fun c hc => ?_).mpr (by decide)
  refine wellFormed_bundled ?_
  rcases List.mem_cons.mp hc with rfl | hc
  · exact Or.inr rfl
  · exact Or.inl (List.mem_singleton.mp hc)

/-- Each of the two comes back alone, but the streams of the FORWARD TSN are read on into the
DATA behind it. -/
theorem not_roundTrips_forwardTsnFirst :
    (∀ c ∈ [forwardTsnChunk, dataChunk], c.WellFormed ∧ c.isInit = false ∧
        RoundTrips (fun _ => 0) (bundleOf [c])) ∧
      ¬ RoundTrips (fun _ => 0) (bundleOf [forwardTsnChunk, dataChunk]) := by
  refine ⟨?_, ?_⟩
  · intro c hc
    refine wellFormed_bundled ?_
    rcases List.mem_cons.mp hc with rfl | hc
    · exact Or.inl rfl
    · exact Or.inr (List.mem_singleton.mp hc)
  · intro ⟨raw, hraw, h⟩
    have hbytes : raw = [0x13, 0x88, 0x13, 0x88, 0, 0, 0, 1, 0, 0, 0, 0, 0xc0, 0, 0, 12, 0, 0, 0, 7,
        0, 1, 0, 2, 0, 0, 0, 19, 0, 0, 0, 8, 0, 1, 0, 0, 0, 0, 0, 58, 1, 2, 3, 0] := by
      refine Except.ok.inj (hraw.symm.trans ?_)
      decide +kernel
    rw [hbytes] at h
    exact absurd h (by decide +kernel)

end Packet

end Sctp
