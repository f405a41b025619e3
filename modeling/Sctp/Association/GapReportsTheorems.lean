import Sctp.Association.GapReports
import Sctp.Association.InboundTheorems
import Sctp.Association.Sender
import Sctp.Lib.Stretch
import Mathlib.Data.List.TakeWhile

/-!
# When a SACK acknowledges nothing but what is held

The gap blocks are the ends of the stretches, so the sender looks up every place from the
first to the last of each, and gives up at the first place 0, whose chunk it has just popped.
-/

namespace Sctp

/-! ## Offsets in 16 bits -/

theorem shownOffset_lt (base t : U32) : shownOffset base t < 2 ^ 16 := by
  unfold shownOffset
  split
  · exact Nat.mod_lt _ (by decide)
  · decide

theorem shownOffset_le_dist (base t : U32) : shownOffset base t ≤ Serial.dist base t := by
  unfold shownOffset
  split
  · rename_i hle
    have hdist : Serial.dist base t = t.toNat - base.toNat := BitVec.toNat_sub_of_le hle
    rw [hdist]
    exact Nat.mod_le ..
  · exact Nat.zero_le _

namespace PayloadQueue

theorem toNat_gapOffset (base t : U32) : (gapOffset base t).toNat = shownOffset base t := by
  unfold gapOffset shownOffset
  by_cases h : base.toNat ≤ t.toNat
  · have hge : t ≥ base := h
    rw [if_pos h, if_pos hge, BitVec.toNat_setWidth]
    rw [BitVec.toNat_sub_of_le hge]
  · have hlt : ¬ t ≥ base := h
    rw [if_neg h, if_neg hlt]
    rfl

theorem gapOffset_succ_iff (base t t' : U32) :
    gapOffset base t + 1 = gapOffset base t' ↔ showsNext base t t' = true := by
  rw [showsNext, beq_iff_eq, ← toNat_gapOffset, ← toNat_gapOffset, ← BitVec.toNat_inj, BitVec.toNat_add]
  rfl

/-! ## Blocks and stretches -/

/-- The block of a stretch. -/
def blockOf (base : U32) (stretch : List U32) : GapAckBlock where
  start := gapOffset base (stretch.headD base)
  end_ := gapOffset base (stretch.getLastD base)

/-- With a block begun, the loop goes on over the rest of the stretch. -/
theorem gapAckBlocksFrom_eq {base t : U32} {ts g : List U32} {gs : List (List U32)} {start : U16}
    (hs : (t :: ts).splitBy (showsNext base) = (t :: g) :: gs) :
    gapAckBlocksFrom { start, end_ := gapOffset base t } (ts.map (gapOffset base)) =
      { blockOf base (t :: g) with start } :: gs.map (blockOf base) := by
  induction ts generalizing t g gs start with
  | nil =>
    injection hs with hg hgs
    injection hg with _ hg
    rw [← hg, ← hgs]
    rfl
  | cons t' ts ih =>
    obtain ⟨g', gs', hs'⟩ := Stretch.exists_splitBy_cons (showsNext base) t' ts
    rw [List.map_cons, gapAckBlocksFrom]
    by_cases hnext : gapOffset base t + 1 = gapOffset base t'
    · have hrel := (gapOffset_succ_iff base t t').mp hnext
      rw [Stretch.splitBy_cons_of_rel hrel hs'] at hs
      injection hs with hg hgs
      injection hg with _ hg
      rw [if_pos hnext, hnext, ih hs', ← hg, ← hgs]
      rfl
    · have hrel : showsNext base t t' = false := by
        rw [← Bool.not_eq_true, ← gapOffset_succ_iff]
        exact hnext
      rw [Stretch.splitBy_cons_of_not hrel] at hs
      injection hs with hg hgs
      injection hg with _ hg
      rw [if_neg hnext, ih hs', ← hg, ← hgs, hs']
      rfl

/-- It is enough that the sorted keys are those of the map. -/
theorem getGapAckBlocks_eq {q : PayloadQueue} (hmem : ∀ t, t ∈ q.sorted ↔ t ∈ q.chunkMap)
    (base : U32) : q.getGapAckBlocks base = (q.stretches base).map (blockOf base) := by
  unfold getGapAckBlocks stretches
  rcases hsorted : q.sorted with _ | ⟨t, ts⟩
  · have hempty : q.chunkMap.entries = [] := by
      rw [List.eq_nil_iff_forall_not_mem]
      intro e he
      have hkey : e.1 ∈ q.sorted := (hmem e.1).mpr (List.mem_map_of_mem he)
      rw [hsorted] at hkey
      cases hkey
    rw [if_pos hempty]
    rfl
  · have hne : q.chunkMap.entries ≠ [] := by
      intro hempty
      have hmem := (hmem t).mp (by rw [hsorted]; exact List.mem_cons_self)
      rw [AList.mem_keys, AList.keys, hempty] at hmem
      cases hmem
    obtain ⟨g, gs, hs⟩ := Stretch.exists_splitBy_cons (showsNext base) t ts
    rw [if_neg hne, List.map_cons, hs]
    exact gapAckBlocksFrom_eq hs

theorem mem_of_mem_stretches {q : PayloadQueue} {base t : U32} {stretch : List U32}
    (hstretch : stretch ∈ q.stretches base) (ht : t ∈ stretch) : t ∈ q.sorted := by
  rw [← List.flatten_splitBy _ q.sorted]
  exact List.mem_flatten.mpr ⟨stretch, hstretch, ht⟩

/-- Each place from the first to the last of a stretch is where one of its TSNs shows. -/
theorem exists_shownOffset {q : PayloadQueue} {base : U32} {stretch : List U32}
    (hstretch : stretch ∈ q.stretches base) {o : ℕ} (hfirst : shownFirst base stretch ≤ o)
    (hlast : o ≤ shownLast base stretch) : ∃ t ∈ stretch, shownOffset base t = o := by
  have hchain := List.isChain_of_mem_splitBy hstretch
  obtain ⟨t, g, rfl⟩ := List.exists_cons_of_ne_nil (List.ne_nil_of_mem_splitBy hstretch)
  have hlast' : o ≤ shownOffset base ((t :: g).getLast (List.cons_ne_nil t g)) := by
    rw [List.getLast_eq_getLastD, ← List.getLastD_cons (a := base)]
    exact hlast
  exact Stretch.exists_label (hchain.imp fun _ _ h => beq_iff_eq.mp h) hfirst hlast'
    fun t _ => shownOffset_lt base t

/-! ## The sender's queue without its first chunk -/

theorem chunkMap_of_pop_none {q q' : PayloadQueue} {t : U32} (h : q.pop t = (q', none)) :
    q'.chunkMap = q.chunkMap := by
  unfold PayloadQueue.pop at h
  split at h
  · injection h with hq _
    rw [← hq]
  · split at h
    · split at h
      · injection h with _ hc
        cases hc
      · injection h with hq _
        rw [← hq]
    · injection h with hq _
      rw [← hq]

namespace Spans

variable {q : PayloadQueue} {base : U32} {n : ℕ}

/-- A pop that succeeds leaves the TSNs behind the first one. -/
theorem pop (h : q.Spans base n) (hn : n < 2 ^ 32) {q' : PayloadQueue} {c : ChunkPayloadData}
    (hpop : q.pop (base + 1) = (q', some c)) : 0 < n ∧ q'.Spans (base + 1) (n - 1) ∧
      ∀ t, q'.get t = if t = base + 1 then none else q.get t := by
  have hhead : q.sorted.head? = some (base + 1) := by
    by_contra hne
    rw [pop_of_head?_ne hne] at hpop
    injection hpop with _ hc
    cases hc
  obtain ⟨rest, hsorted⟩ := List.head?_eq_some_iff.mp hhead
  obtain ⟨c₁, q₁, hpop₁, hget, _, hmap, hwf⟩ := h.toWF.pop_head hsorted
  rw [hpop] at hpop₁
  injection hpop₁ with hq _
  subst hq
  have hfirst : base + 1 ∈ q.chunkMap := by
    rw [← AList.lookup_isSome, hget]
    rfl
  rw [h.mem, Ahead.dist_next] at hfirst
  refine ⟨by omega, ⟨hwf, ?_⟩, ?_⟩
  · intro t
    rw [hmap, AList.mem_erase, h.mem]
    -- all distances are one less, but for the TSN that is gone
    have hnext := Ahead.dist_next base
    by_cases ht : t = base
    · have hback := Serial.dist_comm_of_ne (a := base) (b := base + 1) (by bv_omega)
      rw [ht, Serial.dist_self, hback]
      omega
    · have hpos : 0 < Serial.dist base t :=
        Nat.pos_of_ne_zero fun h0 => ht (Serial.dist_eq_zero.mp h0)
      have hstep := dist_succ_of_pos hpos
      have hself : t = base + 1 ↔ Serial.dist (base + 1) t = 0 := Serial.dist_eq_zero.symm
      rw [ne_eq, hself]
      omega
  · intro t
    rw [PayloadQueue.get, hmap]
    by_cases ht : t = base + 1
    · rw [if_pos ht, ht, AList.lookup_erase]
    · rw [if_neg ht, AList.lookup_erase_ne ht]
      rfl

end Spans

/-- TSNs that are all within reach of 16 bits show where they are, if they do not wrap. -/
theorem showsHeld_of_near {q : PayloadQueue} (h : q.WF) {base : U32}
    (hnear : ∀ t ∈ q.chunkMap, Serial.dist base t < 2 ^ 16) : q.ShowsHeld base := by
  intro stretch hstretch t ht hfirst _
  have hne := List.mem_takeWhile_imp hstretch
  have hin := (List.takeWhile_sublist _).subset hstretch
  have hmem := (h.mem_iff t).mp (mem_of_mem_stretches hin ht)
  rw [bne_iff_ne] at hne
  have hshown : shownOffset base t = Serial.dist base t := by
    have hnot : shownOffset base t ≠ 0 := by omega
    unfold shownOffset at hnot ⊢
    by_cases hle : base.toNat ≤ t.toNat
    · have hdist : Serial.dist base t = t.toNat - base.toNat := BitVec.toNat_sub_of_le hle
      rw [if_pos hle, ← hdist, Nat.mod_eq_of_lt (hnear t hmem)]
    · rw [if_neg hle] at hnot
      exact absurd rfl hnot
  rw [hshown, after_dist]
  exact hmem

end PayloadQueue

namespace AssociationInternal

variable {a : AssociationInternal}

/-! ## What the sender pops -/

/-- Of the loop over the acknowledged chunks, however it ends: what is gone lies at or before
the cumulative TSN, and after `Ok` what is in flight starts behind it. -/
theorem popAcked_spans {now : ℕ} {e base : U32} {n : ℕ} {b : BytesAcked}
    (hq : a.inflightQueue.Spans base n) (hn : n < 2 ^ 32) (he : Serial.dist base e < 2 ^ 31) :
    (∀ t, (popAcked now e (base + 1) a b).1.inflightQueue.get t = a.inflightQueue.get t ∨
      Serial.dist base t ≤ Serial.dist base e) ∧
    ∀ a' b', popAcked now e (base + 1) a b = (a', .ok b') →
      a'.inflightQueue.Spans e (n - Serial.dist base e) := by
  induction hd : Serial.dist base e generalizing base a b n with
  | zero =>
    -- behind the last TSN acknowledged the loop ends
    have hlte : ¬ sna32lte (base + 1) e = true := by
      rw [sna32lte_succ_iff he]
      omega
    have hbase : e = base := Serial.dist_eq_zero.mp hd
    rw [popAcked, if_neg hlte]
    refine ⟨fun t => Or.inl rfl, ?_⟩
    intro a' b' h
    injection h with ha _
    rw [← ha, hbase]
    exact hq
  | succ d ih =>
    have hlte : sna32lte (base + 1) e = true := by
      rw [sna32lte_succ_iff he]
      omega
    have hnext := dist_succ_of_pos (i := base) (e := e) (by omega)
    rw [popAcked, if_pos hlte]
    rcases hpop : a.inflightQueue.pop (base + 1) with ⟨q, _ | c⟩
    · refine ⟨fun t => Or.inl ?_, fun a' b' h => ?_⟩
      · -- a pop that fails takes out nothing
        show q.chunkMap.lookup t = _
        rw [PayloadQueue.chunkMap_of_pop_none hpop]
        rfl
      · cases h
    · obtain ⟨hpos, hrest, hget⟩ := hq.pop hn hpop
      have hquiet := quiet_ackPopped { a with inflightQueue := q } now (base + 1) c b
      dsimp only
      rcases hack : ackPopped { a with inflightQueue := q } now (base + 1) c b with ⟨a₁, err | b₁⟩
      · rw [hack] at hquiet
        refine ⟨fun t => ?_, fun a' b' h => ?_⟩
        · -- the measurement fails when the chunk is gone already
          show a₁.inflightQueue.get t = _ ∨ _
          rw [hquiet.inflightQueue]
          by_cases ht : t = base + 1
          · refine Or.inr ?_
            rw [ht, PayloadQueue.Ahead.dist_next]
            omega
          · refine Or.inl ?_
            rw [hget t, if_neg ht]
        · cases h
      · rw [hack] at hquiet
        have hq₁ : (a₁.exitFastRecovery c).inflightQueue = q :=
          (quiet_exitFastRecovery a₁ c).inflightQueue.trans hquiet.inflightQueue
        rw [← hq₁] at hrest
        obtain ⟨hkept, hspans⟩ := ih hrest (by omega) (by omega) (by omega) (b := b₁)
        refine ⟨fun t => ?_, fun a' b' h => ?_⟩
        · by_cases ht : Serial.dist base t = 0
          · exact Or.inr (by omega)
          · have hstep := dist_succ_of_pos (i := base) (e := t) (by omega)
            rcases hkept t with heq | hle
            · rw [hq₁, hget t] at heq
              by_cases hfirst : t = base + 1
              · refine Or.inr ?_
                rw [hfirst, PayloadQueue.Ahead.dist_next]
                omega
              · rw [if_neg hfirst] at heq
                exact Or.inl heq
            · exact Or.inr (by omega)
        · have hspans := hspans a' b' h
          rwa [show n - 1 - d = n - (d + 1) by omega] at hspans

/-! ## What the sender marks -/

/-- One round of the loop over the gap blocks marks the chunk, if it is not marked yet; only
a measurement can end the loop there. -/
theorem ackGaps_cons (now : ℕ) (a : AssociationInternal) (b : BytesAcked) (htna : U32) {tsn : U32}
    (tsns : List U32) {c : ChunkPayloadData} (hget : a.inflightQueue.get tsn = some c) :
    ∃ a₁ : AssociationInternal, (∀ t, t ≠ tsn → a₁.inflightQueue.get t = a.inflightQueue.get t) ∧
      (∃ c₁, a₁.inflightQueue.get tsn = some c₁ ∧ c₁.acked = true ∧ c₁.nsent = c.nsent) ∧
      ((c.nsent = 1 ∧ ∃ err, ackGaps now a b htna (tsn :: tsns) = (a₁, .error err)) ∨
        ∃ b₁ htna₁, ackGaps now a b htna (tsn :: tsns) = ackGaps now a₁ b₁ htna₁ tsns) := by
  have hlookup : a.inflightQueue.chunkMap.lookup tsn = some c := hget
  rw [ackGaps, hget]
  dsimp only
  by_cases hacked : c.acked = true
  · rw [if_pos hacked]
    exact ⟨a, fun t _ => rfl, ⟨c, hget, hacked, rfl⟩, Or.inr ⟨b, htna, rfl⟩⟩
  · rw [if_neg hacked]
    -- the queue after the mark
    have hother : ∀ t, t ≠ tsn →
        (a.inflightQueue.markAsAcked tsn).1.get t = a.inflightQueue.get t := by
      intro t ht
      unfold PayloadQueue.markAsAcked
      rw [hlookup]
      exact AssocMap.lookup_modify_ne ht _ _
    have hmarked : (a.inflightQueue.markAsAcked tsn).1.get tsn =
        some { c with acked := true, retransmit := false, userData := [] } := by
      unfold PayloadQueue.markAsAcked
      rw [hlookup]
      show (AssocMap.modify tsn _ a.inflightQueue.chunkMap).lookup tsn = _
      rw [AssocMap.lookup_modify_self, hlookup]
      rfl
    generalize a.inflightQueue.markAsAcked tsn = marked at hother hmarked ⊢
    by_cases hnsent : c.nsent = 1
    · rw [if_pos hnsent]
      have hquiet := (quiet_measureRtt { a with inflightQueue := marked.1 } now c.since).inflightQueue
      rcases hm : measureRtt { a with inflightQueue := marked.1 } now c.since with ⟨a₁, err | _⟩
      · rw [hm] at hquiet
        dsimp only at hquiet
        refine ⟨a₁, ?_, ?_, Or.inl ⟨hnsent, err, rfl⟩⟩
        · rwa [hquiet]
        · rw [hquiet]
          exact ⟨_, hmarked, rfl, rfl⟩
      · rw [hm] at hquiet
        dsimp only at hquiet
        refine ⟨a₁, ?_, ?_, Or.inr ⟨_, _, rfl⟩⟩
        · rwa [hquiet]
        · rw [hquiet]
          exact ⟨_, hmarked, rfl, rfl⟩
    · rw [if_neg hnsent]
      exact ⟨{ a with inflightQueue := marked.1 }, hother, ⟨_, hmarked, rfl, rfl⟩,
        Or.inr ⟨_, _, rfl⟩⟩

/-- A round looks nothing away. -/
theorem mem_of_get_eq {a a₁ : AssociationInternal} {tsn : U32} {c c₁ : ChunkPayloadData}
    (hget : a.inflightQueue.get tsn = some c) (hget₁ : a₁.inflightQueue.get tsn = some c₁)
    (hother : ∀ t, t ≠ tsn → a₁.inflightQueue.get t = a.inflightQueue.get t) (t : U32) :
    t ∈ a₁.inflightQueue.chunkMap ↔ t ∈ a.inflightQueue.chunkMap := by
  have hget₁' : a₁.inflightQueue.chunkMap.lookup tsn = some c₁ := hget₁
  have hget' : a.inflightQueue.chunkMap.lookup tsn = some c := hget
  rw [← AList.lookup_isSome, ← AList.lookup_isSome]
  by_cases ht : t = tsn
  · rw [ht, hget₁', hget']
    rfl
  · have hsame : a₁.inflightQueue.chunkMap.lookup t = a.inflightQueue.chunkMap.lookup t := hother t ht
    rw [hsame]

/-- A chunk that is marked was so before or is reported, before the first TSN that is not in
flight. -/
theorem ackGaps_acked {now : ℕ} {b : BytesAcked} {htna : U32} {tsns : List U32} {t : U32}
    {c' : ChunkPayloadData} (hc' : (ackGaps now a b htna tsns).1.inflightQueue.get t = some c')
    (hacked : c'.acked = true) : (∃ c, a.inflightQueue.get t = some c ∧ c.acked = true) ∨
      t ∈ tsns.takeWhile fun t => decide (t ∈ a.inflightQueue.chunkMap) := by
  induction tsns generalizing a b htna with
  | nil => exact Or.inl ⟨c', hc', hacked⟩
  | cons tsn tsns ih =>
    rcases hget : a.inflightQueue.get tsn with _ | c
    · rw [ackGaps, hget] at hc'
      exact Or.inl ⟨c', hc', hacked⟩
    · have hmem : tsn ∈ a.inflightQueue.chunkMap := by
        rw [← AList.lookup_isSome]
        exact Option.isSome_iff_exists.mpr ⟨c, hget⟩
      obtain ⟨a₁, hother, ⟨c₁, hget₁, _, _⟩, hrest⟩ := ackGaps_cons now a b htna tsns hget
      have hkeys := mem_of_get_eq hget hget₁ hother
      rw [List.takeWhile_cons_of_pos (by simpa using hmem), List.mem_cons]
      have hstep : (∃ c, a₁.inflightQueue.get t = some c ∧ c.acked = true) ∨
          t ∈ tsns.takeWhile fun t => decide (t ∈ a.inflightQueue.chunkMap) := by
        rcases hrest with ⟨_, err, heq⟩ | ⟨b₁, htna₁, heq⟩
        · rw [heq] at hc'
          exact Or.inl ⟨c', hc', hacked⟩
        · rw [heq] at hc'
          simp only [← hkeys]
          exact ih hc'
      rcases hstep with ⟨c₂, hc₂, hacked₂⟩ | hin
      · by_cases ht : t = tsn
        · exact Or.inr (Or.inl ht)
        · rw [hother t ht] at hc₂
          exact Or.inl ⟨c₂, hc₂, hacked₂⟩
      · exact Or.inr (Or.inr hin)

/-- Where nothing is measured, the loop marks all of them. -/
theorem ackGaps_marks {now : ℕ} {b : BytesAcked} {htna : U32} {tsns : List U32} {t : U32}
    (hnsent : ∀ t c, a.inflightQueue.get t = some c → c.nsent ≠ 1)
    (ht : (∃ c, a.inflightQueue.get t = some c ∧ c.acked = true) ∨
      t ∈ tsns.takeWhile fun t => decide (t ∈ a.inflightQueue.chunkMap)) :
    ∃ c', (ackGaps now a b htna tsns).1.inflightQueue.get t = some c' ∧ c'.acked = true := by
  induction tsns generalizing a b htna with
  | nil =>
    rcases ht with ht | ht
    · exact ht
    · cases ht
  | cons tsn tsns ih =>
    rcases hget : a.inflightQueue.get tsn with _ | c
    · have hmem : ¬ tsn ∈ a.inflightQueue.chunkMap := by
        rw [← AList.lookup_eq_none]
        exact hget
      -- the look-up fails here, and the loop with it
      rw [List.takeWhile_cons_of_neg (by simpa using hmem)] at ht
      rw [ackGaps, hget]
      rcases ht with ht | ht
      · exact ht
      · cases ht
    · have hmem : tsn ∈ a.inflightQueue.chunkMap := by
        rw [← AList.lookup_isSome]
        exact Option.isSome_iff_exists.mpr ⟨c, hget⟩
      obtain ⟨a₁, hother, ⟨c₁, hget₁, hacked₁, hnsent₁⟩, hrest⟩ :=
        ackGaps_cons now a b htna tsns hget
      have hkeys := mem_of_get_eq hget hget₁ hother
      have hnsent' : ∀ t c, a₁.inflightQueue.get t = some c → c.nsent ≠ 1 := by
        intro t' c' hc'
        by_cases ht' : t' = tsn
        · rw [ht', hget₁] at hc'
          injection hc' with hc'
          rw [← hc', hnsent₁]
          exact hnsent tsn c hget
        · rw [hother t' ht'] at hc'
          exact hnsent t' c' hc'
      -- the first TSN is marked now; what follows is left to the rest of the loop
      have ht' : (∃ c, a₁.inflightQueue.get t = some c ∧ c.acked = true) ∨
          t ∈ tsns.takeWhile fun t => decide (t ∈ a₁.inflightQueue.chunkMap) := by
        by_cases hfirst : t = tsn
        · rw [hfirst]
          exact Or.inl ⟨c₁, hget₁, hacked₁⟩
        · rw [List.takeWhile_cons_of_pos (by simpa using hmem), List.mem_cons] at ht
          simp only [hkeys]
          rw [hother t hfirst]
          rcases ht with ht | ht | ht
          · exact Or.inl ht
          · exact absurd ht hfirst
          · exact Or.inr ht
      rcases hrest with ⟨hone, _⟩ | ⟨b₁, htna₁, heq⟩
      · exact absurd hone (hnsent tsn c hget)
      · rw [heq]
        exact ih hnsent' ht'

/-! ## What the SACK reports -/

/-- The TSNs the sender goes through: stretch by stretch, each place from its first to its
last. -/
theorem gapTsns_createSelectiveAckChunk (h : a.payloadQueue.WF) :
    gapTsns a.createSelectiveAckChunk.2 =
      (a.payloadQueue.stretches a.peerLastTsn).flatMap fun stretch =>
        (List.range' (PayloadQueue.shownFirst a.peerLastTsn stretch)
          (PayloadQueue.shownLast a.peerLastTsn stretch + 1 -
            PayloadQueue.shownFirst a.peerLastTsn stretch)).map a.peerLastTsn.after := by
  show (a.payloadQueue.getGapAckBlocks a.peerLastTsn).flatMap _ = _
  rw [PayloadQueue.getGapAckBlocks_eq h.mem_iff, List.flatMap_map]
  refine List.flatMap_congr fun stretch _ => ?_
  show (List.range' (PayloadQueue.gapOffset a.peerLastTsn _).toNat
    ((PayloadQueue.gapOffset a.peerLastTsn _).toNat + 1 -
      (PayloadQueue.gapOffset a.peerLastTsn _).toNat)).map a.peerLastTsn.after = _
  rw [PayloadQueue.toNat_gapOffset, PayloadQueue.toNat_gapOffset]
  rfl

/-- A sender that has in flight all the TSNs up to the last one held looks up those that show
between the ends of a stretch, up to the first stretch that begins at 0. -/
theorem mem_takeWhile_gapTsns (h : a.payloadQueue.Ahead a.peerLastTsn) {q : PayloadQueue} {n : ℕ}
    (hq : q.Spans a.peerLastTsn n) (hheld : ∀ t ∈ a.payloadQueue.chunkMap, t ∈ q.chunkMap)
    (t : U32) : (t ∈ (gapTsns a.createSelectiveAckChunk.2).takeWhile fun t =>
        decide (t ∈ q.chunkMap)) ↔
      ∃ stretch ∈ (a.payloadQueue.stretches a.peerLastTsn).takeWhile fun stretch =>
          PayloadQueue.shownFirst a.peerLastTsn stretch != 0,
        ∃ t' ∈ stretch, PayloadQueue.shownFirst a.peerLastTsn stretch ≤
            shownOffset a.peerLastTsn t' ∧
          shownOffset a.peerLastTsn t' ≤ PayloadQueue.shownLast a.peerLastTsn stretch ∧
          a.peerLastTsn.after (shownOffset a.peerLastTsn t') = t := by
  have htake := Stretch.takeWhile_flatMap
    (l := a.payloadQueue.stretches a.peerLastTsn)
    (p := fun t => decide (t ∈ q.chunkMap))
    (q := fun stretch => PayloadQueue.shownFirst a.peerLastTsn stretch != 0)
    (f := fun stretch => (List.range' (PayloadQueue.shownFirst a.peerLastTsn stretch)
      (PayloadQueue.shownLast a.peerLastTsn stretch + 1 -
        PayloadQueue.shownFirst a.peerLastTsn stretch)).map a.peerLastTsn.after) ?_ ?_
  · rw [gapTsns_createSelectiveAckChunk h.toWF, htake, List.mem_flatMap]
    refine exists_congr fun stretch => and_congr_right fun hstretch => ?_
    have hin := (List.takeWhile_sublist _).subset hstretch
    rw [List.mem_map]
    constructor
    · intro ⟨o, ho, heq⟩
      rw [List.mem_range'_1] at ho
      obtain ⟨t', ht', hshown⟩ :=
        PayloadQueue.exists_shownOffset hin ho.1 (by omega)
      exact ⟨t', ht', by omega, by omega, by rw [hshown, heq]⟩
    · intro ⟨t', _, hfirst, hlast, heq⟩
      exact ⟨_, List.mem_range'_1.mpr ⟨hfirst, by omega⟩, heq⟩
  · -- a place that is not 0 lies before the TSN that shows there
    intro stretch hstretch hfirst y hy
    rw [bne_iff_ne] at hfirst
    obtain ⟨o, ho, rfl⟩ := List.mem_map.mp hy
    rw [List.mem_range'_1] at ho
    obtain ⟨t', ht', hshown⟩ :=
      PayloadQueue.exists_shownOffset hstretch ho.1 (by omega)
    have hsorted := PayloadQueue.mem_of_mem_stretches hstretch ht'
    have hmem := hheld t' ((h.mem_iff t').mp hsorted)
    have hle := shownOffset_le_dist a.peerLastTsn t'
    have hlt := shownOffset_lt a.peerLastTsn t'
    rw [hq.mem] at hmem
    rw [decide_eq_true_eq, hq.mem, dist_after _ (by omega)]
    omega
  · -- the place 0 is the cumulative TSN itself
    intro stretch _ hfirst
    rw [bne_eq_false_iff_eq] at hfirst
    refine ⟨a.peerLastTsn.after 0, (List.range' 1
      (PayloadQueue.shownLast a.peerLastTsn stretch)).map a.peerLastTsn.after, ?_, ?_⟩
    · rw [hfirst]
      rfl
    · rw [decide_eq_false_iff_not, hq.mem, after_zero, Serial.dist_self]
      omega

/-! ## The SACK at the sender -/

variable {s : AssociationInternal}

/-- Nothing is popped for a TSN that is acknowledged already. -/
theorem popAcked_of_acked (now : ℕ) {e : U32} (h : s.cumulativeTsnAckPoint = e) (b : BytesAcked) :
    popAcked now e (s.cumulativeTsnAckPoint + 1) s b = (s, .ok b) := by
  have hlte : ¬ sna32lte (s.cumulativeTsnAckPoint + 1) e = true := by
    rw [h, sna32lte_succ_iff (by rw [Serial.dist_self]; decide), Serial.dist_self]
    omega
  rw [popAcked, if_neg hlte]

theorem processSelectiveAck_of_popAcked {now : ℕ} {d : ChunkSelectiveAck}
    {s₁ : AssociationInternal} {b₁ : BytesAcked}
    (h : popAcked now d.cumulativeTsnAck (s.cumulativeTsnAckPoint + 1) s ∅ = (s₁, .ok b₁)) :
    s.processSelectiveAck now d = ackGaps now s₁ b₁ d.cumulativeTsnAck (gapTsns d) := by
  rw [processSelectiveAck, h]

/-- Popping is never at fault, and a mark is one of what the SACK reports. -/
theorem acksOnlyHeld_of_showsHeld (h : a.payloadQueue.Ahead a.peerLastTsn) (hs : s.SendsTo a)
    (hshows : a.payloadQueue.ShowsHeld a.peerLastTsn) (now : ℕ) : s.AcksOnlyHeld a now := by
  unfold AcksOnlyHeld
  intro s' t c hc hgone
  obtain ⟨n, hn, hq⟩ := hs.contiguous
  have hbehind := hs.behind
  rw [sna32lte_iff] at hbehind
  have hd : a.createSelectiveAckChunk.2.cumulativeTsnAck = a.peerLastTsn := rfl
  obtain ⟨hkept, hspans⟩ := @popAcked_spans s now _ _ _ ∅ hq hn hbehind
  -- what the cumulative TSN takes out of flight
  have hpopped : Serial.dist s.cumulativeTsnAckPoint t ≤
      Serial.dist s.cumulativeTsnAckPoint a.peerLastTsn → sna32lte t a.peerLastTsn = true := by
    intro hle
    rw [sna32lte_iff, Serial.dist_sub hle]
    omega
  rcases hkept t with hsame | hle
  · rcases hpop : popAcked now a.peerLastTsn (s.cumulativeTsnAckPoint + 1) s ∅ with ⟨s₁, err | b₁⟩
    · have hs' : s' = s₁ := by
        show (s.processSelectiveAck now _).1 = s₁
        rw [processSelectiveAck, hd, hpop]
      rw [hpop] at hsame
      rw [hs', hsame, hc] at hgone
      rcases hgone with hgone | ⟨hacked, c', hc', hacked'⟩
      · cases hgone
      · injection hc' with hc'
        rw [← hc', hacked] at hacked'
        cases hacked'
    · have hs' : s' = (ackGaps now s₁ b₁ a.peerLastTsn (gapTsns a.createSelectiveAckChunk.2)).1 := by
        show (s.processSelectiveAck now _).1 = _
        rw [processSelectiveAck_of_popAcked hpop]
        rfl
      have hq₁ := hspans s₁ b₁ hpop
      rw [hpop] at hsame
      have htouched := (ackGaps_touched now s₁ b₁ a.peerLastTsn
        (gapTsns a.createSelectiveAckChunk.2)).2.1
      rw [← hs'] at htouched
      rcases hgone with hgone | ⟨hacked, c', hc', hacked'⟩
      · have hmem := htouched.mem_iff t
        rw [← AList.lookup_isSome, ← AList.lookup_isSome] at hmem
        have hnone : s'.inflightQueue.chunkMap.lookup t = none := hgone
        have hsome : s₁.inflightQueue.chunkMap.lookup t = some c := hsame.trans hc
        rw [hnone, hsome] at hmem
        simp at hmem
      · rw [hs'] at hc'
        rcases ackGaps_acked hc' hacked' with ⟨c₁, hc₁, hacked₁⟩ | hin
        · rw [hsame, hc] at hc₁
          injection hc₁ with hc₁
          rw [← hc₁, hacked] at hacked₁
          cases hacked₁
        · right
          have hheld : ∀ t ∈ a.payloadQueue.chunkMap, t ∈ s₁.inflightQueue.chunkMap := by
            intro t' ht'
            have hmem := hs.holds t' ht'
            rw [hq.mem] at hmem
            have hahead := h.ahead_of_mem ht'
            have hadd := Serial.dist_add (a := s.cumulativeTsnAckPoint) (b := a.peerLastTsn) (c := t')
              (by omega)
            rw [hq₁.mem]
            omega
          rw [mem_takeWhile_gapTsns h hq₁ hheld] at hin
          obtain ⟨stretch, hstretch, t', ht', hfirst, hlast, heq⟩ := hin
          rw [← heq]
          exact hshows stretch hstretch t' ht' hfirst hlast
  · exact Or.inl (hpopped hle)

theorem exists_window (base : U32) {n : ℕ} (hn : n ≤ 2 ^ 31) : ∃ q : PayloadQueue,
    q.Window base n ∧ ∀ t c, q.get t = some c → c.acked = false ∧ c.nsent = 2 := by
  induction n with
  | zero =>
    refine ⟨{}, PayloadQueue.Window.new base, ?_⟩
    intro t c hc
    cases hc
  | succ n ih =>
    obtain ⟨q, hq, hchunks⟩ := ih (by omega)
    refine ⟨q.pushNoCheck { tsn := base.after (n + 1), nsent := 2 }, hq.pushNoCheck hn rfl, ?_⟩
    intro t c hc
    by_cases ht : t = base.after (n + 1)
    · subst ht
      rw [PayloadQueue.Window.get_pushNoCheck_self { tsn := base.after (n + 1), nsent := 2 }] at hc
      injection hc with hc
      subst hc
      exact ⟨rfl, rfl⟩
    · rw [PayloadQueue.Window.get_pushNoCheck ht] at hc
      exact hchunks t c hc

/-- A sender whose chunks up to `n` are all outstanding marks one that is not held. -/
theorem exists_not_acksOnlyHeld (h : a.payloadQueue.Ahead a.peerLastTsn) {n : ℕ}
    (hn : n ≤ 2 ^ 31) (hheld : ∀ t ∈ a.payloadQueue.chunkMap, Serial.dist a.peerLastTsn t ≤ n)
    (hshows : ¬ a.payloadQueue.ShowsHeld a.peerLastTsn) :
    ∃ s : AssociationInternal, s.SendsTo a ∧ s.inflightQueue.Window a.peerLastTsn n ∧
      ∀ now, ¬ s.AcksOnlyHeld a now := by
  obtain ⟨q, hwindow, hchunks⟩ := exists_window a.peerLastTsn hn
  have hq := hwindow.spans (by omega)
  have hholds : ∀ t ∈ a.payloadQueue.chunkMap, t ∈ q.chunkMap := by
    intro t ht
    rw [hq.mem]
    exact ⟨(h.ahead_of_mem ht).1, hheld t ht⟩
  obtain ⟨s, hcum, rfl⟩ : ∃ s : AssociationInternal,
      s.cumulativeTsnAckPoint = a.peerLastTsn ∧ s.inflightQueue = q :=
    ⟨{ a with cumulativeTsnAckPoint := a.peerLastTsn, inflightQueue := q }, rfl, rfl⟩
  refine ⟨s, ⟨⟨n, by omega, by rwa [hcum]⟩, hholds, ?_⟩, hwindow, ?_⟩
  · rw [hcum, sna32lte_iff, Serial.dist_self]
    decide
  · intro now hacks
    apply hshows
    intro stretch hstretch t' ht' hfirst hlast
    have hin := (mem_takeWhile_gapTsns h hq hholds
      (a.peerLastTsn.after (shownOffset a.peerLastTsn t'))).mpr
        ⟨stretch, hstretch, t', ht', hfirst, hlast, rfl⟩
    have hmem := List.mem_takeWhile_imp hin
    rw [decide_eq_true_eq] at hmem
    obtain ⟨c, hc⟩ := Option.isSome_iff_exists.mp (AList.lookup_isSome.mpr hmem)
    obtain ⟨c', hc', hacked'⟩ := @ackGaps_marks s now ∅ a.createSelectiveAckChunk.2.cumulativeTsnAck _ _
      (fun t c hc => by rw [(hchunks t c hc).2]; decide) (Or.inr hin)
    rw [← processSelectiveAck_of_popAcked (popAcked_of_acked now hcum ∅)] at hc'
    rcases hacks _ c hc (Or.inr ⟨(hchunks _ c hc).1, c', hc', hacked'⟩) with hlte | hheld
    · -- it is ahead of what is in sequence
      have hpos : 0 < shownOffset a.peerLastTsn t' := by
        have hne := List.mem_takeWhile_imp hstretch
        rw [bne_iff_ne] at hne
        omega
      have hlt := shownOffset_lt a.peerLastTsn t'
      have hdist := dist_after a.peerLastTsn (k := shownOffset a.peerLastTsn t') (by omega)
      rw [sna32lte_iff, Serial.dist_comm_of_ne (a := a.peerLastTsn), hdist] at hlte
      · omega
      · intro heq
        rw [← heq, Serial.dist_self] at hdist
        omega
    · exact hheld

/-- An association that holds the given TSNs beyond the one it has in sequence. -/
def holding (peerLastTsn : U32) (tsns : List U32) : AssociationInternal :=
  { justEstablished with
    peerLastTsn
    payloadQueue := tsns.foldl (fun q tsn => q.pushNoCheck { tsn }) {} }

theorem ahead_foldl_pushNoCheck {base : U32} {tsns : List U32} {q : PayloadQueue}
    (hq : q.Ahead base) (htsns : Runs.Along (fun q tsn => q.pushNoCheck { tsn })
      (fun q tsn => q.canPush { tsn } base = true) q tsns) :
    (tsns.foldl (fun q tsn => q.pushNoCheck { tsn }) q).Ahead base := by
  induction tsns generalizing q with
  | nil => exact hq
  | cons tsn tsns ih => exact ih (hq.pushNoCheck htsns.1) htsns.2

theorem holding_ahead {peerLastTsn : U32} {tsns : List U32}
    (htsns : Runs.Along (fun (q : PayloadQueue) tsn => q.pushNoCheck { tsn })
      (fun q tsn => q.canPush { tsn } peerLastTsn = true) {} tsns) :
    (holding peerLastTsn tsns).payloadQueue.Ahead (holding peerLastTsn tsns).peerLastTsn :=
  ahead_foldl_pushNoCheck (PayloadQueue.Ahead.new peerLastTsn) htsns

/-- **When a SACK acknowledges only what is held.** -/
theorem acksOnlyHeld_iff_showsHeld (h : a.payloadQueue.Ahead a.peerLastTsn) :
    (∀ (s : AssociationInternal) (now : ℕ), s.SendsTo a → s.AcksOnlyHeld a now) ↔
      a.payloadQueue.ShowsHeld a.peerLastTsn := by
  constructor
  · intro hall
    by_contra hshows
    obtain ⟨s, hs, _, hnot⟩ := exists_not_acksOnlyHeld h (Nat.le_refl _)
      (fun t ht => (h.ahead_of_mem ht).2) hshows
    exact hnot 0 (hall s 0 hs)
  · intro hshows s now hs
    exact acksOnlyHeld_of_showsHeld h hs hshows now

/-- A TSN of the next 65536 may be held together with the one it shows as. -/
theorem acksOnlyHeld_holding : (holding 100 [65639, 103]).payloadQueue.Ahead 100 ∧
    ∀ (s : AssociationInternal) (now : ℕ), s.SendsTo (holding 100 [65639, 103]) →
      s.AcksOnlyHeld (holding 100 [65639, 103]) now := by
  have hahead := @holding_ahead 100 [65639, 103] (by decide +kernel)
  exact ⟨hahead, (acksOnlyHeld_iff_showsHeld hahead).mpr (by decide +kernel)⟩

/-- The TSN 65541 further shows as the fifth, which the sender then takes for received. -/
theorem not_acksOnlyHeld_holding : (holding 100 [65641]).payloadQueue.Ahead 100 ∧
    ∃ s : AssociationInternal, s.SendsTo (holding 100 [65641]) ∧
      s.inflightQueue.Window 100 65541 ∧ ∀ now, ¬ s.AcksOnlyHeld (holding 100 [65641]) now := by
  have hahead := @holding_ahead 100 [65641] (by decide +kernel)
  refine ⟨hahead, exists_not_acksOnlyHeld hahead (by omega) ?_ (by decide +kernel)⟩
  intro t ht
  have ht' : t ∈ AList.insert (65641 : U32) ({ tsn := 65641 } : ChunkPayloadData) ∅ := ht
  rw [AList.mem_insert] at ht'
  rcases ht' with rfl | ht'
  · decide
  · exact absurd ht' (AList.notMem_empty t)

end AssociationInternal

end Sctp
