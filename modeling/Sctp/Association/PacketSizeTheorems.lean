import Sctp.Association.SenderNotesTheorems
import Sctp.Wire.RoundTripTheorems

/-!
# The size of the packets that carry data

When DATA chunks are bundled, the test leaves out the chunk header of the chunk to be added; neither
there nor in a fast retransmission does it count padding. What a packet comes to on the wire counts
both.
-/

namespace Sctp

namespace AssociationInternal

variable {a : AssociationInternal}

/-! ## Sizes -/

/-- What the loops count of a packet. -/
def countedSize (cs : List ChunkPayloadData) : ℕ :=
  commonHeaderSize.toNat + (cs.map fun c => dataChunkHeaderSize.toNat + c.userData.length).sum

/-- What the packet comes to. -/
def wireSize (cs : List ChunkPayloadData) : ℕ :=
  commonHeaderSize.toNat + (cs.map fun c =>
    let n := dataChunkHeaderSize.toNat + c.userData.length
    n + getPaddingSize n).sum

/-- The packet marshals to at most `mtu` bytes. -/
def FitsMtu (a : AssociationInternal) (p : Packet) : Prop :=
  ∀ crc, ∃ bytes, p.marshal crc = .ok bytes ∧ bytes.length ≤ a.mtu.toNat

/-- Bundling the chunks makes packets that fit. -/
def BundlesWithinMtu (a : AssociationInternal) (cs : List ChunkPayloadData) : Prop :=
  ∀ p ∈ a.bundleDataChunksIntoPackets cs, a.FitsMtu p

/-- A fast retransmission makes packets that fit. -/
def RetransmitsWithinMtu (a : AssociationInternal) (now : ℕ) : Prop :=
  ∀ p ∈ (a.gatherOutboundFastRetransmissionPackets now).2, a.FitsMtu p

/-- No chunk joins a packet that is too small for it: `packet` has been begun, and a chunk joins it
where what is counted of it and the chunk's data are at most `mtu`. -/
def JoinsWithin (mtu : ℕ) (packet : List ChunkPayloadData) : List ChunkPayloadData → Prop
  | [] => True
  | c :: cs =>
    if countedSize packet + c.userData.length > mtu then
      wireSize [c] ≤ mtu ∧ JoinsWithin mtu [c] cs
    else
      wireSize (packet ++ [c]) ≤ mtu ∧ JoinsWithin mtu (packet ++ [c]) cs

instance JoinsWithin.decidable (mtu : ℕ) :
    ∀ packet cs : List ChunkPayloadData, Decidable (JoinsWithin mtu packet cs)
  | _, [] => isTrue trivial
  | packet, c :: cs =>
    have := JoinsWithin.decidable mtu [c] cs
    have := JoinsWithin.decidable mtu (packet ++ [c]) cs
    inferInstanceAs (Decidable (if countedSize packet + c.userData.length > mtu then
      wireSize [c] ≤ mtu ∧ JoinsWithin mtu [c] cs
    else
      wireSize (packet ++ [c]) ≤ mtu ∧ JoinsWithin mtu (packet ++ [c]) cs))

/-- The chunks a fast retransmission would send if a packet had no limit. -/
def dueFast (now : ℕ) (a : AssociationInternal) : List U32 → List ChunkPayloadData
  | [] => []
  | tsn :: tsns =>
    match a.inflightQueue.get tsn with
    | none => []
    | some c =>
      if c.acked || c.isAbandoned a.flags || c.nsent > 1 || c.missIndicator < 3 then
        dueFast now a tsns
      else
        { c with nsent := c.nsent + 1 } ::
          dueFast now (a.resend now tsn fun c => { c with nsent := c.nsent + 1 }).1 tsns

/-- As many of these chunks as are counted as `mtu` at most are no more than that. -/
def PrefixesFit (mtu : ℕ) (cs : List ChunkPayloadData) : Prop :=
  ∀ k, countedSize (cs.take k) ≤ mtu → wireSize (cs.take k) ≤ mtu

/-! ## What a packet comes to -/

theorem countedSize_append (cs cs' : List ChunkPayloadData) :
    countedSize (cs ++ cs') = countedSize cs +
      (cs'.map fun c => dataChunkHeaderSize.toNat + c.userData.length).sum := by
  unfold countedSize
  rw [List.map_append, List.sum_append, Nat.add_assoc]

theorem wireSize_append (cs cs' : List ChunkPayloadData) :
    wireSize (cs ++ cs') = wireSize cs + (wireSize cs' - commonHeaderSize.toNat) := by
  unfold wireSize
  rw [List.map_append, List.sum_append]
  omega

theorem wireSize_le_append (cs cs' : List ChunkPayloadData) : wireSize cs ≤ wireSize (cs ++ cs') := by
  rw [wireSize_append]
  omega

/-- DATA chunks can always be marshalled, one behind the other. -/
theorem length_marshalChunks {raw : Bytes} (hraw : raw.length % 4 = 0)
    (cs : List ChunkPayloadData) :
    ∃ out, Packet.marshalChunks raw (cs.map .payloadData) = .ok out ∧
      out.length = raw.length + (wireSize cs - commonHeaderSize.toNat) := by
  induction cs generalizing raw with
  | nil => exact ⟨raw, rfl, by simp [wireSize]⟩
  | cons c cs ih =>
    obtain ⟨body, hbody⟩ : ∃ body, (Chunk.payloadData c).marshalValue = .ok body := ⟨_, rfl⟩
    have hlen : body.length = 12 + c.userData.length := by
      cases hbody
      simp [Bytes.putU32, Bytes.putU16]
      omega
    have hchunk : (Packet.chunkBytes (.payloadData c) body).length =
        16 + c.userData.length + getPaddingSize (16 + c.userData.length) := by
      unfold Packet.chunkBytes
      rw [List.length_append, List.length_append, Bytes.length_zeros, ChunkHeader.length_marshal, hlen]
      have hsame : chunkHeaderSize + (12 + c.userData.length) = 16 + c.userData.length := by
        unfold chunkHeaderSize
        omega
      rw [hsame]
      omega
    -- each chunk ends on a multiple of four, so the next one needs no padding before it
    have hmod := Packet.length_chunkBytes_mod (.payloadData c) body
    obtain ⟨out, hout, hout'⟩ := @ih (raw ++ Packet.chunkBytes (.payloadData c) body) (by
      rw [List.length_append]
      omega)
    refine ⟨out, ?_, ?_⟩
    · rw [List.map_cons, Packet.marshalChunks_cons hraw hbody]
      exact hout
    · have hsplit := wireSize_append [c] cs
      have hone : wireSize [c] = 12 + (16 + c.userData.length +
          getPaddingSize (16 + c.userData.length)) := rfl
      have hcommon : commonHeaderSize.toNat = 12 := rfl
      rw [List.singleton_append] at hsplit
      rw [List.length_append] at hout'
      omega

theorem fitsMtu_iff {p : Packet} {cs : List ChunkPayloadData} (hp : p.chunks = cs.map .payloadData) :
    a.FitsMtu p ↔ wireSize cs ≤ a.mtu.toNat := by
  obtain ⟨out, hout, hlen⟩ := @length_marshalChunks [] rfl cs
  obtain ⟨head, hhead⟩ : ∃ head, head = Bytes.putU16 p.sourcePort ++
    (Bytes.putU16 p.destinationPort ++ Bytes.putU32 p.verificationTag) := ⟨_, rfl⟩
  have height : head.length = 8 := by
    rw [hhead]
    rfl
  -- the checksum takes four bytes, whatever it is
  have hmarshal : ∀ crc : Bytes → U32, ∃ bytes, p.marshal crc = .ok bytes ∧
      bytes.length = wireSize cs := by
    intro crc
    refine ⟨head ++ Bytes.putU32LE (crc (head ++ [0, 0, 0, 0] ++ out)) ++ out, ?_, ?_⟩
    · unfold Packet.marshal Packet.marshalTo
      rw [hp, hout, List.nil_append, ← hhead]
      rfl
    · have hcommon : commonHeaderSize.toNat ≤ wireSize cs := Nat.le_add_right _ _
      have htwelve : commonHeaderSize.toNat = 12 := rfl
      have hempty : ([] : Bytes).length = 0 := rfl
      have hsum : ∀ n : U32, (Bytes.putU32LE n).length = 4 := fun _ => rfl
      rw [List.length_append, List.length_append, height, hsum, hlen]
      omega
  unfold FitsMtu
  constructor
  · intro h
    obtain ⟨bytes, hok, hle⟩ := h fun _ => 0
    obtain ⟨bytes', hok', hsize⟩ := hmarshal fun _ => 0
    rw [hok] at hok'
    cases hok'
    omega
  · intro h crc
    obtain ⟨bytes, hok, hsize⟩ := hmarshal crc
    exact ⟨bytes, hok, by omega⟩

/-! ## Bundling -/

/-- The packet that has been begun is one of those that come out, maybe with more in it. -/
theorem exists_mem_bundleFrom (a : AssociationInternal) {toSend : List Chunk} (hsend : toSend ≠ [])
    (bytes : U32) (cs : List ChunkPayloadData) :
    ∃ more : List ChunkPayloadData, a.createPacket (toSend ++ more.map .payloadData) ∈
      a.bundleFrom toSend bytes cs := by
  induction cs generalizing toSend bytes with
  | nil =>
    refine ⟨[], ?_⟩
    rw [bundleFrom, if_neg hsend, List.map_nil, List.append_nil]
    exact List.mem_singleton_self _
  | cons c cs ih =>
    rw [bundleFrom]
    split
    · refine ⟨[], ?_⟩
      -- the packet is full and goes out as it is
      rw [List.map_nil, List.append_nil]
      exact List.mem_cons_self
    · obtain ⟨more, hmore⟩ := @ih (toSend ++ [.payloadData c]) (by simp)
        (bytes + (dataChunkHeaderSize + BitVec.ofNat 32 c.userData.length))
      refine ⟨c :: more, ?_⟩
      rw [List.map_cons, List.append_cons toSend (.payloadData c) (more.map .payloadData)]
      exact hmore

/-- A packet that fits is no smaller than when it was begun. -/
theorem wireSize_le_of_bundleFrom {packet : List ChunkPayloadData} (hpacket : packet ≠ [])
    {bytes : U32} {cs : List ChunkPayloadData}
    (hfits : ∀ p ∈ a.bundleFrom (packet.map .payloadData) bytes cs, a.FitsMtu p) :
    wireSize packet ≤ a.mtu.toNat := by
  have hsend : packet.map Chunk.payloadData ≠ [] := fun hnil => hpacket (List.map_eq_nil_iff.mp hnil)
  obtain ⟨more, hmore⟩ := a.exists_mem_bundleFrom hsend bytes cs
  have hfit := hfits _ hmore
  rw [← List.map_append, fitsMtu_iff rfl] at hfit
  exact Nat.le_trans (wireSize_le_append packet more) hfit

/-- The test of the loop, which cannot overflow. -/
theorem exceeds_iff (hmtu : a.mtu.toNat < 2 ^ 31) {bytes : U32} {n counted : ℕ}
    (hbytes : bytes.toNat = counted) (hcounted : counted ≤ a.mtu.toNat + 16)
    (hn : n + 28 ≤ a.mtu.toNat) :
    bytes + BitVec.ofNat 32 n > a.mtu ↔ counted + n > a.mtu.toNat := by
  have hdata : (BitVec.ofNat 32 n).toNat = n := by
    rw [BitVec.toNat_ofNat, Nat.mod_eq_of_lt (by omega)]
  have hsum : (bytes + BitVec.ofNat 32 n).toNat = counted + n := by
    rw [BitVec.toNat_add, hdata, hbytes, Nat.mod_eq_of_lt (by omega)]
  rw [gt_iff_lt, BitVec.lt_def, hsum]

/-- From a packet that fits on, all packets fit if and only if every chunk fits that joins one. -/
theorem bundleFrom_fits_iff (hmtu : a.mtu.toNat < 2 ^ 31) {packet cs : List ChunkPayloadData}
    {bytes : U32} (hbytes : bytes.toNat = countedSize packet)
    (hcounted : countedSize packet ≤ a.mtu.toNat + 16) (hpacket : wireSize packet ≤ a.mtu.toNat)
    (hcs : ∀ c ∈ cs, c.userData.length + 28 ≤ a.mtu.toNat) :
    (∀ p ∈ a.bundleFrom (packet.map .payloadData) bytes cs, a.FitsMtu p) ↔
      JoinsWithin a.mtu.toNat packet cs := by
  induction cs generalizing packet bytes with
  | nil =>
    unfold JoinsWithin
    rw [bundleFrom]
    split
    · simp
    · simp only [List.mem_singleton, forall_eq, iff_true]
      exact (fitsMtu_iff rfl).mpr hpacket
  | cons c cs ih =>
    have hc := hcs c List.mem_cons_self
    have hcs' : ∀ c' ∈ cs, c'.userData.length + 28 ≤ a.mtu.toNat :=
      fun c' hc' => hcs c' (List.mem_cons_of_mem c hc')
    have hdata : (BitVec.ofNat 32 c.userData.length).toNat = c.userData.length := by
      rw [BitVec.toNat_ofNat, Nat.mod_eq_of_lt (by omega)]
    have htest := exceeds_iff hmtu hbytes hcounted hc
    have hheader : dataChunkHeaderSize.toNat = 16 := rfl
    have hcommon : commonHeaderSize.toNat = 12 := rfl
    have hchunk : (dataChunkHeaderSize + BitVec.ofNat 32 c.userData.length).toNat =
        16 + c.userData.length := by
      rw [BitVec.toNat_add, hdata, hheader, Nat.mod_eq_of_lt (by omega)]
    have hadded : countedSize (packet ++ [c]) = countedSize packet + (16 + c.userData.length) := by
      rw [countedSize_append]
      rfl
    rw [bundleFrom, JoinsWithin]
    -- the chunk begins a packet of its own, or joins the one that has been begun
    by_cases hover : countedSize packet + c.userData.length > a.mtu.toNat
    · rw [if_pos (htest.mpr hover), if_pos hover, List.forall_mem_cons]
      have halone : countedSize [c] = 12 + (16 + c.userData.length) := rfl
      have hnew : (commonHeaderSize + (dataChunkHeaderSize +
          BitVec.ofNat 32 c.userData.length)).toNat = countedSize [c] := by
        rw [BitVec.toNat_add, hchunk, hcommon, Nat.mod_eq_of_lt (by omega), halone]
      have hrest := fun hone => @ih [c] _ hnew (by omega) hone hcs'
      constructor
      · rintro ⟨_, hlater⟩
        have hone := wireSize_le_of_bundleFrom (List.cons_ne_nil c []) hlater
        exact ⟨hone, (hrest hone).mp hlater⟩
      · rintro ⟨hone, hlater⟩
        exact ⟨(fitsMtu_iff rfl).mpr hpacket, (hrest hone).mpr hlater⟩
    · rw [if_neg fun h => hover (htest.mp h), if_neg hover]
      have hsum : (bytes + (dataChunkHeaderSize + BitVec.ofNat 32 c.userData.length)).toNat =
          countedSize (packet ++ [c]) := by
        rw [BitVec.toNat_add, hchunk, hbytes, Nat.mod_eq_of_lt (by omega), hadded]
      have hrest := fun hjoined => @ih (packet ++ [c]) _ hsum (by omega) hjoined hcs'
      rw [List.map_append] at hrest
      constructor
      · intro hfits
        have hjoined : wireSize (packet ++ [c]) ≤ a.mtu.toNat := by
          have hne : packet ++ [c] ≠ [] := by simp
          rw [← List.map_singleton, ← List.map_append] at hfits
          exact wireSize_le_of_bundleFrom hne hfits
        exact ⟨hjoined, (hrest hjoined).mp hfits⟩
      · rintro ⟨hjoined, hlater⟩
        exact (hrest hjoined).mpr hlater

/-! ## Fast retransmission -/

/-- What the loop takes is as many of the due chunks as the count lets in. -/
theorem fastRetransmitFrom_takes (hmtu : a.mtu.toNat < 2 ^ 31) {now : ℕ} {size : U32}
    (hsize : size.toNat ≤ a.mtu.toNat)
    (hflight : ∀ t c, a.inflightQueue.get t = some c → c.userData.length + 28 ≤ a.mtu.toNat)
    (toSend : List Chunk) (tsns : List U32) :
    ∃ k, (fastRetransmitFrom now a size toSend tsns).2 =
        toSend ++ ((dueFast now a tsns).take k).map .payloadData ∧
      size.toNat + (((dueFast now a tsns).take k).map fun c =>
        dataChunkHeaderSize.toNat + c.userData.length).sum ≤ a.mtu.toNat ∧
      (k < (dueFast now a tsns).length → a.mtu.toNat <
        size.toNat + (((dueFast now a tsns).take (k + 1)).map fun c =>
          dataChunkHeaderSize.toNat + c.userData.length).sum) := by
  induction tsns generalizing a size toSend with
  | nil => exact ⟨0, by simp [fastRetransmitFrom], by simpa using hsize, by simp [dueFast]⟩
  | cons tsn tsns ih =>
    rw [fastRetransmitFrom, dueFast]
    cases hget : a.inflightQueue.get tsn with
    | none => exact ⟨0, by simp, by simpa using hsize, by simp⟩
    | some c =>
      dsimp only
      split
      · -- acknowledged, given up, or not due
        exact ih hmtu hsize hflight toSend
      · have hc := hflight tsn c hget
        have hheader : dataChunkHeaderSize.toNat = 16 := rfl
        have hdata : (BitVec.ofNat 32 c.userData.length).toNat = c.userData.length := by
          rw [BitVec.toNat_ofNat, Nat.mod_eq_of_lt (by omega)]
        have hchunk : (dataChunkHeaderSize + BitVec.ofNat 32 c.userData.length).toNat =
            dataChunkHeaderSize.toNat + c.userData.length := by
          rw [BitVec.toNat_add, hdata, Nat.mod_eq_of_lt (by omega)]
        have hadd : (size + (dataChunkHeaderSize + BitVec.ofNat 32 c.userData.length)).toNat =
            size.toNat + (dataChunkHeaderSize.toNat + c.userData.length) := by
          rw [BitVec.toNat_add, hchunk, Nat.mod_eq_of_lt (by omega)]
        split
        · -- the first chunk that is too much ends the loop
          rename_i hover
          rw [BitVec.lt_def, hadd] at hover
          refine ⟨0, by simp, by simpa using hsize, ?_⟩
          intro _
          simpa using hover
        · rename_i hfits
          rw [BitVec.lt_def, hadd, Nat.not_lt] at hfits
          have hmtu' : (a.resend now tsn fun c => { c with nsent := c.nsent + 1 }).1.mtu = a.mtu :=
            resend_frame (f := mtu) (fun _ _ _ => rfl) a now tsn _
          -- sending a chunk again changes no length
          have hflight' := resend_keeps
            (P := fun q => ∀ t c, q.get t = some c → c.userData.length + 28 ≤ a.mtu.toNat)
            (fun q t f hf hlens t' c' hc' => by
              obtain ⟨c, hc, hsame⟩ := (PayloadQueue.SamePayloads.getMut q t hf).get_eq_some hc'
              have hlen : c.userData = c'.userData := (congrArg ChunkPayloadData.userData hsame :)
              rw [← hlen]
              exact hlens t' c hc)
            now tsn (f := fun c => { c with nsent := c.nsent + 1 }) (fun _ => rfl) hflight
          rw [← hmtu'] at hmtu hflight' hfits
          rw [← hadd] at hfits
          obtain ⟨k, heq, hle, hlt⟩ := ih hmtu hfits hflight'
            (toSend ++ [.payloadData { c with nsent := c.nsent + 1 }])
          rw [hadd, hmtu'] at hle hlt
          refine ⟨k + 1, ?_, ?_, ?_⟩
          · rw [resend_sent hget, Option.toList_some, List.map_singleton, heq, List.take_succ_cons,
              List.map_cons, List.append_assoc]
            rfl
          · rw [List.take_succ_cons, List.map_cons, List.sum_cons]
            show size.toNat + (dataChunkHeaderSize.toNat + c.userData.length + _) ≤ _
            omega
          · intro hk
            have hk' := hlt (by simpa using hk)
            rw [List.take_succ_cons, List.map_cons, List.sum_cons]
            show _ < size.toNat + (dataChunkHeaderSize.toNat + c.userData.length + _)
            omega

theorem wireSize_take_le {cs : List ChunkPayloadData} {k l : ℕ} (h : k ≤ l) :
    wireSize (cs.take k) ≤ wireSize (cs.take l) := by
  have hsplit : cs.take l = cs.take k ++ (cs.take l).drop k := by
    have htake : (cs.take l).take k = cs.take k := by rw [List.take_take, Nat.min_eq_left h]
    rw [← htake, List.take_append_drop]
  rw [hsplit]
  exact wireSize_le_append _ _

theorem countedSize_take_le {cs : List ChunkPayloadData} {k l : ℕ} (h : k ≤ l) :
    countedSize (cs.take k) ≤ countedSize (cs.take l) := by
  have hsplit : cs.take l = cs.take k ++ (cs.take l).drop k := by
    have htake : (cs.take l).take k = cs.take k := by rw [List.take_take, Nat.min_eq_left h]
    rw [← htake, List.take_append_drop]
  rw [hsplit, countedSize_append]
  omega

/-- Chunks that fit a packet together do so in part. -/
theorem prefixesFit_of_wireSize_le {cs : List ChunkPayloadData} {mtu : ℕ} (h : wireSize cs ≤ mtu) :
    PrefixesFit mtu cs := by
  intro k _
  have hsplit := wireSize_le_append (cs.take k) (cs.drop k)
  rw [List.take_append_drop] at hsplit
  exact Nat.le_trans hsplit h

/-- The one packet of a fast retransmission. -/
theorem retransmitsWithinMtu_iff (hmtu : a.mtu.toNat < 2 ^ 31) (h28 : 28 ≤ a.mtu.toNat)
    (hflight : ∀ t c, a.inflightQueue.get t = some c → c.userData.length + 28 ≤ a.mtu.toNat)
    (now : ℕ) :
    a.RetransmitsWithinMtu now ↔ (a.willRetransmitFast = true →
      PrefixesFit a.mtu.toNat (dueFast now { a with willRetransmitFast := false }
        (a.inflightQueue.tsnsFrom (a.cumulativeTsnAckPoint + 1)))) := by
  unfold RetransmitsWithinMtu gatherOutboundFastRetransmissionPackets
  by_cases hdue : a.willRetransmitFast = true
  · rw [if_pos hdue]
    obtain ⟨k, heq, hle, hlt⟩ := @fastRetransmitFrom_takes { a with willRetransmitFast := false }
      hmtu now commonHeaderSize (by
        show 12 ≤ a.mtu.toNat
        omega) hflight [] (a.inflightQueue.tsnsFrom (a.cumulativeTsnAckPoint + 1))
    generalize dueFast now { a with willRetransmitFast := false }
      (a.inflightQueue.tsnsFrom (a.cumulativeTsnAckPoint + 1)) = due at heq hle hlt ⊢
    dsimp only
    rw [List.nil_append] at heq
    rw [heq]
    -- the packet has the longest part that is counted as `mtu` at most
    have hpacket : PrefixesFit a.mtu.toNat due ↔ wireSize (due.take k) ≤ a.mtu.toNat := by
      constructor
      · intro h
        exact h k hle
      · intro h l hl
        refine Nat.le_trans ?_ h
        by_cases hlk : l ≤ k
        · exact wireSize_take_le hlk
        · by_cases hk : k < due.length
          · have hmore := @countedSize_take_le due _ _ (show k + 1 ≤ l by omega)
            have hover : a.mtu.toNat < countedSize (due.take (k + 1)) := hlt hk
            omega
          · have hall : due.take l = due.take k := by
              rw [List.take_of_length_le (by omega), List.take_of_length_le (by omega)]
            rw [hall]
    rw [hpacket]
    by_cases hnone : (due.take k).map Chunk.payloadData = []
    · have hempty : due.take k = [] := List.map_eq_nil_iff.mp hnone
      have hheader : wireSize [] ≤ a.mtu.toNat := by
        show 12 ≤ a.mtu.toNat
        omega
      rw [hnone, hempty]
      simp [hheader]
    · rw [if_pos hnone]
      simp only [List.mem_singleton, forall_eq, hdue, forall_const]
      exact fitsMtu_iff rfl
  · rw [if_neg hdue]
    simp [hdue]

theorem bundlesWithinMtu_iff (hsize : a.maxPayloadSize.toNat + 28 = a.mtu.toNat)
    (hmtu : a.mtu.toNat < 2 ^ 31) {cs : List ChunkPayloadData}
    (hcs : ∀ c ∈ cs, c.userData.length ≤ a.maxPayloadSize.toNat) :
    a.BundlesWithinMtu cs ↔ JoinsWithin a.mtu.toNat [] cs := by
  have hcounted : countedSize [] = 12 := rfl
  have hwire : wireSize [] = 12 := rfl
  have hlens : ∀ c ∈ cs, c.userData.length + 28 ≤ a.mtu.toNat := by
    intro c hc
    have hlen := hcs c hc
    omega
  exact @bundleFrom_fits_iff _ hmtu [] cs commonHeaderSize rfl (by omega) (by omega) hlens

/-- **When the packets stay within the MTU.** -/
theorem packetsWithinMtu_iff (hsize : a.maxPayloadSize.toNat + 28 = a.mtu.toNat)
    (hmtu : a.mtu.toNat < 2 ^ 31) :
    (∀ cs : List ChunkPayloadData, (∀ c ∈ cs, c.userData.length ≤ a.maxPayloadSize.toNat) →
      (a.BundlesWithinMtu cs ↔ JoinsWithin a.mtu.toNat [] cs)) ∧
    ∀ now, (∀ t c, a.inflightQueue.get t = some c → c.userData.length ≤ a.maxPayloadSize.toNat) →
      (a.RetransmitsWithinMtu now ↔ (a.willRetransmitFast = true →
        PrefixesFit a.mtu.toNat (dueFast now { a with willRetransmitFast := false }
          (a.inflightQueue.tsnsFrom (a.cumulativeTsnAckPoint + 1))))) := by
  refine ⟨fun cs hcs => bundlesWithinMtu_iff hsize hmtu hcs, ?_⟩
  intro now hflight
  apply retransmitsWithinMtu_iff hmtu (by omega)
  intro t c hc
  have hlen := hflight t c hc
  omega

/-- Two chunks that fill a packet together. -/
def fillPacket : List ChunkPayloadData :=
  [{ userData := List.replicate 1180 0 }, { userData := List.replicate 4 0 }]

/-- Two chunks of which the second is counted without its header. -/
def overfillPacket : List ChunkPayloadData :=
  [{ userData := List.replicate 1183 0 }, { userData := List.replicate 17 0 }]

/-- Five small messages in one packet, and three SACKs that report the first two missing. -/
def missedTwo : AssociationInternal :=
  Runs.run senderStep justEstablished
    [.openStream 1 .binary, .write 0 [1] .binary, .write 0 [2, 3] .binary, .write 0 [4] .binary,
      .write 0 [5] .binary, .write 0 [6] .binary, .gather 0,
      .sack 1 ⟨0xfffffffe, 4096, [⟨3, 3⟩], []⟩, .sack 1 ⟨0xfffffffe, 4096, [⟨3, 4⟩], []⟩,
      .sack 1 ⟨0xfffffffe, 4096, [⟨3, 5⟩], []⟩]

/-- Two chunks are due then, and one packet takes both. -/
theorem packetsWithinMtu_fillPacket :
    missedTwo.BundlesWithinMtu fillPacket ∧ missedTwo.RetransmitsWithinMtu 2 ∧
      missedTwo.willRetransmitFast = true ∧
      (dueFast 2 { missedTwo with willRetransmitFast := false }
        (missedTwo.inflightQueue.tsnsFrom (missedTwo.cumulativeTsnAckPoint + 1))).map (·.tsn) =
          [0xffffffff, 0] := by
  have h := @packetsWithinMtu_iff missedTwo (by decide +kernel) (by decide +kernel)
  have hflight : ∀ e ∈ missedTwo.inflightQueue.chunkMap.entries,
      e.2.userData.length ≤ missedTwo.maxPayloadSize.toNat := by
    decide +kernel
  refine ⟨(h.1 fillPacket (by decide +kernel)).mpr (by decide +kernel), ?_, by decide +kernel,
    by decide +kernel⟩
  refine (h.2 2 ?_).mpr ?_
  · intro t c hc
    exact hflight ⟨t, c⟩ (AList.mem_lookup_iff.mp hc)
  · intro _
    exact prefixesFit_of_wireSize_le (by decide +kernel)

/-- The packet has 20 bytes too many. -/
theorem not_bundlesWithinMtu_overfillPacket :
    ¬ ∀ (a : AssociationInternal) (cs : List ChunkPayloadData),
      a.maxPayloadSize.toNat + 28 = a.mtu.toNat →
      (∀ c ∈ cs, c.userData.length ≤ a.maxPayloadSize.toNat) → a.BundlesWithinMtu cs := by
  intro hall
  have hcs : ∀ c ∈ overfillPacket, c.userData.length ≤ justEstablished.maxPayloadSize.toNat := by
    decide +kernel
  have hnot : ¬ JoinsWithin justEstablished.mtu.toNat [] overfillPacket := by decide +kernel
  have hwithin := hall justEstablished overfillPacket (by decide) hcs
  have hjoins := @bundlesWithinMtu_iff justEstablished (by decide) (by decide) overfillPacket hcs
  rw [← hjoins] at hnot
  exact hnot hwithin

end AssociationInternal

end Sctp
