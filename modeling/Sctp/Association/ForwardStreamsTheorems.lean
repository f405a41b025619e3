import Sctp.Association.SenderTheorems
import Sctp.Lib.KeyedMax

/-!
# The streams a FORWARD TSN lists

`create_forward_tsn` goes over all chunks up to the advanced ack point, whether ordered or not, and
keeps the greatest SSN of each stream. The list is to tell of the ordered ones only.
-/

namespace Sctp

namespace AssociationInternal

variable {a : AssociationInternal}

/-! ## What the list is to say -/

/-- The TSN is in (cumulative ack point, advanced ack point], which is empty when the advanced point
is serially behind. -/
def Skipped (a : AssociationInternal) (t : U32) : Prop :=
  0 < Serial.dist a.cumulativeTsnAckPoint t ∧
    Serial.dist a.cumulativeTsnAckPoint t ≤
      Serial.dist a.cumulativeTsnAckPoint a.advancedPeerTsnAckPoint ∧
    Serial.dist a.cumulativeTsnAckPoint a.advancedPeerTsnAckPoint ≤ 2 ^ 31

/-- A chunk in flight under one of these TSNs. -/
def SkippedChunk (a : AssociationInternal) (c : ChunkPayloadData) : Prop :=
  ∃ t, a.Skipped t ∧ a.inflightQueue.get t = some c

/-- The TSNs in flight are those that follow the ack point up to some TSN. -/
def Contiguous (a : AssociationInternal) : Prop :=
  ∃ n, ∀ t, t ∈ a.inflightQueue.chunkMap ↔
    0 < Serial.dist a.cumulativeTsnAckPoint t ∧ Serial.dist a.cumulativeTsnAckPoint t ≤ n

theorem Sending.contiguous {n : ℕ} (h : a.Sending n) (hn : n < 2 ^ 31) : a.Contiguous :=
  ⟨n, h.window.mem_window (by omega)⟩

/-- The SSNs of each stream lie in a window of less than half of their space. -/
def SsnsInWindow (a : AssociationInternal) : Prop :=
  ∃ base : U16 → U16, ∀ c, a.SkippedChunk c →
    Serial.dist (base c.streamIdentifier) c.streamSequenceNumber < 2 ^ 15

/-- The list has one entry for each stream with an ordered chunk among those skipped, which tells
the serially greatest SSN of these, and no other entries. -/
def ListsOrderedStreams (a : AssociationInternal) : Prop :=
  (a.createForwardTsn.streams.map (·.identifier)).Nodup ∧
    ∀ s : ChunkForwardTsnStream, s ∈ a.createForwardTsn.streams ↔
      (∃ c, a.SkippedChunk c ∧ c.unordered = false ∧ c.streamIdentifier = s.identifier ∧
        c.streamSequenceNumber = s.sequence) ∧
      ∀ c, a.SkippedChunk c → c.unordered = false → c.streamIdentifier = s.identifier →
        sna16lt s.sequence c.streamSequenceNumber = false

/-- Every unordered chunk among those skipped has an ordered one of its stream beside it, whose SSN
is not serially before its own. -/
def UnorderedCovered (a : AssociationInternal) : Prop :=
  ∀ c, a.SkippedChunk c → c.unordered = true →
    ∃ c', a.SkippedChunk c' ∧ c'.unordered = false ∧ c'.streamIdentifier = c.streamIdentifier ∧
      sna16lt c'.streamSequenceNumber c.streamSequenceNumber = false

/-! ## The loop -/

/-- The stream and the SSN of a chunk. -/
def streamSsn (c : ChunkPayloadData) : U16 × U16 := (c.streamIdentifier, c.streamSequenceNumber)

/-- A round of the loop. -/
theorem keepGreatest_streamSsn (streams : AssocMap U16 U16) (c : ChunkPayloadData) :
    AssocMap.keepGreatest sna16lt streams (streamSsn c) =
      let newer :=
        match streams.lookup c.streamIdentifier with
        | some ssn => sna16lt ssn c.streamSequenceNumber
        | none => true
      if newer then streams.insert c.streamIdentifier c.streamSequenceNumber else streams := by
  unfold AssocMap.keepGreatest streamSsn
  dsimp only
  cases streams.lookup c.streamIdentifier <;> rfl

/-- The chunks the loop goes over. -/
def skippedChunks (a : AssociationInternal) : List ChunkPayloadData :=
  if Serial.dist a.cumulativeTsnAckPoint a.advancedPeerTsnAckPoint ≤ 2 ^ 31 then
    (tsnWindow a.cumulativeTsnAckPoint
      (Serial.dist a.cumulativeTsnAckPoint a.advancedPeerTsnAckPoint)).filterMap a.inflightQueue.get
  else
    []

theorem mem_skippedChunks {c : ChunkPayloadData} : c ∈ a.skippedChunks ↔ a.SkippedChunk c := by
  have hbound := Serial.dist_lt a.cumulativeTsnAckPoint a.advancedPeerTsnAckPoint
  unfold skippedChunks SkippedChunk Skipped
  split
  · rename_i hnear
    rw [List.mem_filterMap]
    refine exists_congr fun t => ?_
    rw [mem_tsnWindow hbound]
    constructor
    · rintro ⟨⟨hpos, hle⟩, hget⟩
      exact ⟨⟨hpos, hle, hnear⟩, hget⟩
    · rintro ⟨⟨hpos, hle, _⟩, hget⟩
      exact ⟨⟨hpos, hle⟩, hget⟩
  · rename_i hfar
    constructor
    · intro hc
      cases hc
    · rintro ⟨_, ⟨_, _, hnear⟩, _⟩
      exact absurd hnear hfar

/-- From the `k`th TSN on, with `m` left to go, the loop folds over the chunks. -/
theorem skippedStreams_from {n : ℕ}
    (hq : ∀ t, t ∈ a.inflightQueue.chunkMap ↔
      0 < Serial.dist a.cumulativeTsnAckPoint t ∧ Serial.dist a.cumulativeTsnAckPoint t ≤ n)
    (hnear : Serial.dist a.cumulativeTsnAckPoint a.advancedPeerTsnAckPoint ≤ 2 ^ 31) {k m : ℕ}
    (hm : k + m = Serial.dist a.cumulativeTsnAckPoint a.advancedPeerTsnAckPoint)
    (streams : AssocMap U16 U16) :
    a.skippedStreams (a.cumulativeTsnAckPoint.after (k + 1)) streams =
      (((tsnWindow (a.cumulativeTsnAckPoint.after k) m).filterMap a.inflightQueue.get).map
        streamSsn).foldl (AssocMap.keepGreatest sna16lt) streams := by
  induction m generalizing k streams with
  | zero =>
    -- the next TSN is behind the advanced point
    have hend : a.cumulativeTsnAckPoint.after k = a.advancedPeerTsnAckPoint := by
      rw [show k = Serial.dist a.cumulativeTsnAckPoint a.advancedPeerTsnAckPoint by omega]
      exact after_dist _ _
    have hlte : ¬ sna32lte (a.cumulativeTsnAckPoint.after (k + 1)) a.advancedPeerTsnAckPoint =
        true := by
      rw [← after_succ, hend, sna32lte_succ_iff (by rw [Serial.dist_self]; omega),
        Serial.dist_self]
      omega
    rw [skippedStreams, if_neg hlte]
    rfl
  | succ m ih =>
    have hhere : Serial.dist a.cumulativeTsnAckPoint (a.cumulativeTsnAckPoint.after (k + 1)) =
        k + 1 := dist_after _ (by omega)
    have hleft : Serial.dist (a.cumulativeTsnAckPoint.after (k + 1)) a.advancedPeerTsnAckPoint =
        m := by
      have hsub : Serial.dist (a.cumulativeTsnAckPoint.after (k + 1)) a.advancedPeerTsnAckPoint =
          Serial.dist a.cumulativeTsnAckPoint a.advancedPeerTsnAckPoint -
            Serial.dist a.cumulativeTsnAckPoint (a.cumulativeTsnAckPoint.after (k + 1)) :=
        Serial.dist_sub (by omega)
      omega
    have hlte : sna32lte (a.cumulativeTsnAckPoint.after (k + 1)) a.advancedPeerTsnAckPoint =
        true := by
      rw [sna32lte_iff]
      omega
    rw [skippedStreams, if_pos hlte, tsnWindow_succ_left, after_succ a.cumulativeTsnAckPoint k]
    cases hget : a.inflightQueue.get (a.cumulativeTsnAckPoint.after (k + 1)) with
    | none =>
      -- what follows a TSN that is missing is missing too
      have hout : n < k + 1 := by
        by_contra hin
        have hmem := (hq (a.cumulativeTsnAckPoint.after (k + 1))).mpr (by omega)
        rw [← AList.lookup_isSome] at hmem
        rw [show a.inflightQueue.chunkMap.lookup (a.cumulativeTsnAckPoint.after (k + 1)) = none
          from hget] at hmem
        cases hmem
      have hnone : (a.cumulativeTsnAckPoint.after (k + 1) ::
          tsnWindow (a.cumulativeTsnAckPoint.after (k + 1)) m).filterMap a.inflightQueue.get =
          [] := by
        rw [List.filterMap_eq_nil_iff]
        intro t ht
        have hdist : k + 1 ≤ Serial.dist a.cumulativeTsnAckPoint t := by
          rcases List.mem_cons.mp ht with heq | hlater
          · rw [heq, hhere]
          · obtain ⟨j, hj, rfl⟩ := List.mem_map.mp hlater
            have hj' := List.mem_range.mp hj
            rw [after_add, dist_after _ (by omega)]
            omega
        cases h : a.inflightQueue.get t with
        | none => rfl
        | some c =>
          have hmem : t ∈ a.inflightQueue.chunkMap := by
            rw [← AList.lookup_isSome, show a.inflightQueue.chunkMap.lookup t = some c from h]
            rfl
          have hle := ((hq t).mp hmem).2
          omega
      rw [hnone]
      rfl
    | some c =>
      rw [List.filterMap_cons, hget]
      dsimp only
      have hkeep := keepGreatest_streamSsn streams c
      rw [after_succ, ih (by omega), List.map_cons, List.foldl_cons]
      exact congrArg (fun kept => List.foldl (AssocMap.keepGreatest sna16lt) kept _) hkeep.symm

theorem skippedStreams_eq (h : a.Contiguous) :
    a.skippedStreams (a.cumulativeTsnAckPoint + 1) ∅ =
      AssocMap.greatest sna16lt (a.skippedChunks.map streamSsn) := by
  obtain ⟨n, hq⟩ := h
  unfold skippedChunks AssocMap.greatest
  split
  · rename_i hnear
    have hfrom := skippedStreams_from hq hnear (k := 0) (Nat.zero_add _) ∅
    rw [after_zero] at hfrom
    exact hfrom
  · rename_i hfar
    -- an advanced point that is behind ends the loop at once
    have hlte : ¬ sna32lte (a.cumulativeTsnAckPoint + 1) a.advancedPeerTsnAckPoint = true := by
      have hnext := dist_succ_of_pos (i := a.cumulativeTsnAckPoint)
        (e := a.advancedPeerTsnAckPoint) (by omega)
      rw [sna32lte_iff]
      omega
    rw [skippedStreams, if_neg hlte]
    rfl

theorem mem_createForwardTsn {s : ChunkForwardTsnStream} :
    s ∈ a.createForwardTsn.streams ↔
      (a.skippedStreams (a.cumulativeTsnAckPoint + 1) ∅).lookup s.identifier = some s.sequence := by
  unfold createForwardTsn
  rw [List.mem_map]
  constructor
  · rintro ⟨e, he, rfl⟩
    exact AList.mem_lookup_iff.mpr he
  · intro hlookup
    exact ⟨⟨s.identifier, s.sequence⟩, AList.mem_lookup_iff.mp hlookup, rfl⟩

theorem nodup_createForwardTsn (a : AssociationInternal) :
    (a.createForwardTsn.streams.map (·.identifier)).Nodup := by
  unfold createForwardTsn
  rw [List.map_map]
  exact (a.skippedStreams (a.cumulativeTsnAckPoint + 1) ∅).keys_nodup

/-! ## When the list is right -/

/-- Inside the window the comparison is the order of the offsets. -/
theorem sna16lt_iff_of_window {base : U16} {x y : U16} (hx : Serial.dist base x < 2 ^ 15)
    (hy : Serial.dist base y < 2 ^ 15) :
    sna16lt x y = true ↔ Serial.dist base x < Serial.dist base y :=
  Serial.lt_iff_dist_lt (by decide) (by simp only [Serial.half]; omega)
    (by simp only [Serial.half]; omega)

theorem not_sna16lt_iff_of_window {base : U16} {x y : U16} (hx : Serial.dist base x < 2 ^ 15)
    (hy : Serial.dist base y < 2 ^ 15) :
    sna16lt x y = false ↔ Serial.dist base y ≤ Serial.dist base x := by
  rw [← Bool.not_eq_true, sna16lt_iff_of_window hx hy]
  omega

/-- What the list has: for each stream with a chunk among those skipped, the greatest SSN of all its
chunks. -/
theorem mem_createForwardTsn_iff (h : a.Contiguous) {base : U16 → U16}
    (hbase : ∀ c, a.SkippedChunk c →
      Serial.dist (base c.streamIdentifier) c.streamSequenceNumber < 2 ^ 15)
    (s : ChunkForwardTsnStream) :
    s ∈ a.createForwardTsn.streams ↔
      (∃ c, a.SkippedChunk c ∧ c.streamIdentifier = s.identifier ∧
        c.streamSequenceNumber = s.sequence) ∧
      ∀ c, a.SkippedChunk c → c.streamIdentifier = s.identifier →
        Serial.dist (base s.identifier) c.streamSequenceNumber ≤
          Serial.dist (base s.identifier) s.sequence := by
  have hpairs : ∀ e, e ∈ a.skippedChunks.map streamSsn ↔
      ∃ c, a.SkippedChunk c ∧ streamSsn c = e := by
    intro e
    rw [List.mem_map]
    exact exists_congr fun c => and_congr_left' mem_skippedChunks
  have hgreatest := @AssocMap.greatest_spec _ _ _ sna16lt (a.skippedChunks.map streamSsn)
    s.identifier (Serial.dist (base s.identifier)) (by
      intro e he e' he' hkey hkey'
      obtain ⟨c, hc, rfl⟩ := (hpairs e).mp he
      obtain ⟨c', hc', rfl⟩ := (hpairs e').mp he'
      have hin := hbase c hc
      have hin' := hbase c' hc'
      rw [show c.streamIdentifier = s.identifier from hkey] at hin
      rw [show c'.streamIdentifier = s.identifier from hkey'] at hin'
      exact sna16lt_iff_of_window hin hin')
  rw [mem_createForwardTsn, skippedStreams_eq h]
  constructor
  · intro hlookup
    obtain ⟨hmem, hall⟩ := hgreatest hlookup
    obtain ⟨c, hc, heq⟩ := (hpairs _).mp hmem
    refine ⟨⟨c, hc, congrArg Prod.fst heq, congrArg Prod.snd heq⟩, ?_⟩
    intro c' hc' hsi
    exact hall _ ((hpairs _).mpr ⟨c', hc', rfl⟩) hsi
  · rintro ⟨⟨c, hc, hsi, hssn⟩, hall⟩
    obtain ⟨v, hv⟩ := AssocMap.exists_lookup_greatest sna16lt ((hpairs _).mpr ⟨c, hc, rfl⟩)
    rw [show (streamSsn c).1 = s.identifier from hsi] at hv
    obtain ⟨hmem, hmax⟩ := hgreatest hv
    obtain ⟨c', hc', heq⟩ := (hpairs _).mp hmem
    -- both are greatest, so they are the same
    have hle := hall c' hc' (congrArg Prod.fst heq)
    have hge := hmax _ ((hpairs _).mpr ⟨c, hc, rfl⟩) hsi
    rw [show c'.streamSequenceNumber = v from congrArg Prod.snd heq] at hle
    rw [show (streamSsn c).2 = s.sequence from hssn] at hge
    rw [hv, Serial.dist_inj (Nat.le_antisymm hle hge)]

/-- **The streams of a FORWARD TSN.** With the SSNs of each stream in a window, the list is that of
the ordered chunks if and only if every unordered one is covered by an ordered one. -/
theorem listsOrderedStreams_iff (h : a.Contiguous) (hssns : a.SsnsInWindow) :
    a.ListsOrderedStreams ↔ a.UnorderedCovered := by
  obtain ⟨base, hbase⟩ := hssns
  have hmem := mem_createForwardTsn_iff h hbase
  have hnotlt : ∀ c c', a.SkippedChunk c → a.SkippedChunk c' →
      c'.streamIdentifier = c.streamIdentifier →
        (sna16lt c'.streamSequenceNumber c.streamSequenceNumber = false ↔
          Serial.dist (base c.streamIdentifier) c.streamSequenceNumber ≤
            Serial.dist (base c.streamIdentifier) c'.streamSequenceNumber) := by
    intro c c' hc hc' hsi
    have hin' := hbase c' hc'
    rw [hsi] at hin'
    exact not_sna16lt_iff_of_window hin' (hbase c hc)
  constructor
  · rintro ⟨_, hlist⟩ c hc _
    -- the entry of its stream is that of an ordered chunk, and no SSN is above it
    obtain ⟨v, hv⟩ := AssocMap.exists_lookup_greatest sna16lt
      (List.mem_map_of_mem (f := streamSsn) (mem_skippedChunks.mpr hc))
    rw [← skippedStreams_eq h] at hv
    have hentry : (⟨c.streamIdentifier, v⟩ : ChunkForwardTsnStream) ∈ a.createForwardTsn.streams :=
      mem_createForwardTsn.mpr hv
    obtain ⟨⟨c', hc', hordered, hsi, hssn⟩, _⟩ := (hlist _).mp hentry
    refine ⟨c', hc', hordered, hsi, ?_⟩
    rw [hnotlt c c' hc hc' hsi, show c'.streamSequenceNumber = v from hssn]
    exact ((hmem _).mp hentry).2 c hc rfl
  · intro hcovered
    refine ⟨nodup_createForwardTsn a, ?_⟩
    intro s
    rw [hmem]
    constructor
    · rintro ⟨⟨c, hc, hsi, hssn⟩, hall⟩
      refine ⟨?_, ?_⟩
      · by_cases hun : c.unordered = true
        · obtain ⟨c', hc', hordered, hsi', hnot⟩ := hcovered c hc hun
          rw [hnotlt c c' hc hc' hsi', hsi, hssn] at hnot
          have hle := hall c' hc' (hsi'.trans hsi)
          exact ⟨c', hc', hordered, hsi'.trans hsi, Serial.dist_inj (Nat.le_antisymm hle hnot)⟩
        · exact ⟨c, hc, by simpa using hun, hsi, hssn⟩
      · intro c' hc' _ hsi'
        have hle := hall c' hc' hsi'
        rw [← hssn, hnotlt c' c hc' hc (hsi.trans hsi'.symm), hsi', hssn]
        exact hle
    · rintro ⟨⟨c, hc, hordered, hsi, hssn⟩, hall⟩
      refine ⟨⟨c, hc, hsi, hssn⟩, ?_⟩
      have hordereds : ∀ c', a.SkippedChunk c' → c'.unordered = false →
          c'.streamIdentifier = s.identifier →
            Serial.dist (base s.identifier) c'.streamSequenceNumber ≤
              Serial.dist (base s.identifier) s.sequence := by
        intro c' hc' hordered' hsi'
        have hnot := hall c' hc' hordered' hsi'
        rw [← hssn, hnotlt c' c hc' hc (hsi.trans hsi'.symm), hsi', hssn] at hnot
        exact hnot
      intro c' hc' hsi'
      by_cases hun : c'.unordered = true
      · obtain ⟨c'', hc'', hordered'', hsi'', hnot⟩ := hcovered c' hc' hun
        rw [hnotlt c' c'' hc' hc'' hsi'', hsi'] at hnot
        exact Nat.le_trans hnot (hordereds c'' hc'' hordered'' (hsi''.trans hsi'))
      · exact hordereds c' hc' (by simpa using hun) hsi'

/-! ## Two runs -/

/-- A run that stays in bounds keeps the TSNs in flight contiguous. -/
theorem contiguous_of_along {ops : List SenderOp}
    (hops : Runs.Along senderStep InBounds justEstablished ops) :
    (Runs.run senderStep justEstablished ops).Contiguous := by
  obtain ⟨n, hn, h⟩ := justEstablished_fresh.run_sending hops
  exact h.contiguous hn

theorem SkippedChunk.mem_entries {c : ChunkPayloadData} (h : a.SkippedChunk c) :
    ∃ e ∈ a.inflightQueue.chunkMap.entries, e.2 = c := by
  obtain ⟨t, _, hget⟩ := h
  exact ⟨⟨t, c⟩, AList.mem_lookup_iff.mp hget, rfl⟩

/-- SSNs in the lower half of their space are in a window. -/
theorem ssnsInWindow_of_entries
    (h : ∀ e ∈ a.inflightQueue.chunkMap.entries,
      Serial.dist (0 : U16) e.2.streamSequenceNumber < 2 ^ 15) : a.SsnsInWindow := by
  refine ⟨fun _ => 0, ?_⟩
  intro c hc
  obtain ⟨e, he, rfl⟩ := hc.mem_entries
  exact h e he

/-- Stream 1 has a message with SSN 0, an unordered one and a message with SSN 1, stream 2 has one
message. They are given up when they are sent, and a SACK does not cover them. -/
def severalGivenUp : List SenderOp :=
  [.openStream 1 .binary, .openStream 2 .binary, .setReliabilityParams 0 false .rexmit 0,
    .setReliabilityParams 1 false .rexmit 0, .write 0 [1] .binary, .write 1 [2] .binary,
    .setReliabilityParams 0 true .rexmit 0, .write 0 [3] .binary,
    .setReliabilityParams 0 false .rexmit 0, .write 0 [4] .binary, .gather 0,
    .sack 1 ⟨0xfffffffe, 4096, [], []⟩]

/-- The list has the last message of each stream. -/
theorem listsOrderedStreams_severalGivenUp :
    (Runs.run senderStep justEstablished severalGivenUp).ListsOrderedStreams ∧
      (Runs.run senderStep justEstablished severalGivenUp).createForwardTsn.streams =
        [⟨2, 0⟩, ⟨1, 1⟩] := by
  have hcontiguous : (Runs.run senderStep justEstablished severalGivenUp).Contiguous :=
    contiguous_of_along (by decide +kernel)
  have hssns : (Runs.run senderStep justEstablished severalGivenUp).SsnsInWindow :=
    ssnsInWindow_of_entries (by decide +kernel)
  refine ⟨(listsOrderedStreams_iff hcontiguous hssns).mpr ?_, by decide +kernel⟩
  intro c hc hun
  -- the unordered message is the first to be sent, the message with SSN 1 the last
  have hall : ∀ e ∈ (Runs.run senderStep justEstablished
      severalGivenUp).inflightQueue.chunkMap.entries,
        (e.2.unordered = true ∨ e.1 = 2) → e.2.streamIdentifier = 1 ∧
          e.2.streamSequenceNumber = 1 ∧ (e.1 = 2 → e.2.unordered = false) := by
    decide +kernel
  obtain ⟨e, he, rfl⟩ := hc.mem_entries
  obtain ⟨hsi, hssn, _⟩ := hall e he (.inl hun)
  have hskipped : (Runs.run senderStep justEstablished severalGivenUp).Skipped 2 := by
    unfold Skipped
    decide +kernel
  have hsome : ((Runs.run senderStep justEstablished severalGivenUp).inflightQueue.get 2).isSome =
      true := by
    decide +kernel
  obtain ⟨c', hget⟩ := Option.isSome_iff_exists.mp hsome
  obtain ⟨hsi', hssn', hordered⟩ := hall ⟨2, c'⟩ (AList.mem_lookup_iff.mp hget) (.inr rfl)
  refine ⟨c', ⟨2, hskipped, hget⟩, hordered rfl, hsi'.trans hsi.symm, ?_⟩
  rw [hssn, hssn']
  decide

/-- A message of stream 1 that is given up when it is sent, and a SACK that does not cover it. -/
def givenUp : List SenderOp :=
  [.openStream 1 .binary, .setReliabilityParams 0 true .rexmit 0, .write 0 [1] .binary,
    .gather 0, .sack 1 ⟨0xfffffffe, 4096, [], []⟩]

/-- An unordered message alone is listed. -/
theorem not_listsOrderedStreams_givenUp :
    let s := Runs.run senderStep justEstablished givenUp
    s.Contiguous ∧ s.SsnsInWindow ∧ ⟨1, 0⟩ ∈ s.createForwardTsn.streams ∧
      ¬ s.ListsOrderedStreams := by
  intro s
  have hcontiguous : s.Contiguous := contiguous_of_along (by decide +kernel)
  have hssns : s.SsnsInWindow := ssnsInWindow_of_entries (by decide +kernel)
  have hentries : ∀ e ∈ s.inflightQueue.chunkMap.entries, e.2.unordered = true := by
    decide +kernel
  have hentry : (⟨1, 0⟩ : ChunkForwardTsnStream) ∈ s.createForwardTsn.streams := by decide +kernel
  refine ⟨hcontiguous, hssns, hentry, ?_⟩
  rintro ⟨_, hlist⟩
  obtain ⟨⟨c, hc, hordered, _⟩, _⟩ := (hlist _).mp hentry
  obtain ⟨e, he, rfl⟩ := hc.mem_entries
  rw [hentries e he] at hordered
  cases hordered

end AssociationInternal

end Sctp
