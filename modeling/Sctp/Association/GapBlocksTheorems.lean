import Sctp.Association.GapBlocks
import Sctp.Association.GapReportsTheorems
import Sctp.Queue.PayloadQueueRunTheorems

/-!
# When gap ack blocks describe what is held

A TSN that is not the smaller number shows at its distance. Then the stretches are runs of
consecutive TSNs, and their ends are what the blocks tell.
-/

namespace Sctp

namespace PayloadQueue

variable {q : PayloadQueue} {base : U32}

theorem Represents.mem_iff (h : q.Represents) (t : U32) : t ∈ q.sorted ↔ t ∈ q.chunkMap := by
  rw [h.sorted_perm.mem_iff, AList.mem_keys]

/-- Near the base, what shows at all shows at its distance. -/
theorem shownOffset_eq_dist {t : U32} (hle : base.toNat ≤ t.toNat)
    (hnear : Serial.dist base t ≤ 65535) : shownOffset base t = Serial.dist base t := by
  have hdist : Serial.dist base t = t.toNat - base.toNat := BitVec.toNat_sub_of_le hle
  unfold shownOffset
  rw [if_pos hle, ← hdist]
  exact Nat.mod_eq_of_lt (by omega)

/-- A block is read at the ends of its stretch. -/
theorem toNat_start_blockOf (base : U32) (stretch : List U32) :
    (blockOf base stretch).start.toNat = shownFirst base stretch := toNat_gapOffset _ _

theorem toNat_end_blockOf (base : U32) (stretch : List U32) :
    (blockOf base stretch).end_.toNat = shownLast base stretch := toNat_gapOffset _ _

/-! ## Without a wrap -/

/-- Every TSN held shows at its distance, in the order of the distances. -/
structure Unwrapped (q : PayloadQueue) (base : U32) : Prop where
  shown : ∀ t ∈ q.sorted, shownOffset base t = Serial.dist base t
  far : ∀ t ∈ q.sorted, 2 ≤ Serial.dist base t
  increasing : q.sorted.Pairwise fun t t' => Serial.dist base t < Serial.dist base t'

theorem Represents.unwrapped (h : q.Represents) (hnear : q.HeldNear base)
    (hle : ∀ t ∈ q.chunkMap, base ≤ t) : q.Unwrapped base := by
  refine ⟨?_, ?_, ?_⟩
  · intro t ht
    rw [h.mem_iff] at ht
    exact shownOffset_eq_dist (hle t ht) (hnear t ht).2
  · intro t ht
    rw [h.mem_iff] at ht
    exact (hnear t ht).1
  · have hwindow : ∀ t ∈ q.chunkMap, Serial.dist base t < 2 ^ 31 := by
      intro t ht
      have hd := (hnear t ht).2
      omega
    refine (h.increasing base hwindow).imp_of_mem fun {t t'} ht ht' hlt => ?_
    have hranks : StableSort.RanksOn sna32lt (Serial.dist base) q.sorted :=
      ranksOn_dist fun t ht => hwindow t ((h.mem_iff t).mp ht)
    exact (hranks t ht t' ht').mp hlt

namespace Unwrapped

variable {stretch : List U32}

theorem increasing_stretch (h : q.Unwrapped base) (hs : stretch ∈ q.stretches base) :
    stretch.Pairwise fun t t' => Serial.dist base t < Serial.dist base t' := by
  have hflat := h.increasing
  rw [← List.flatten_splitBy (showsNext base) q.sorted, List.pairwise_flatten] at hflat
  exact hflat.1 stretch hs

theorem shown_of_mem (h : q.Unwrapped base) (hs : stretch ∈ q.stretches base) {t : U32}
    (ht : t ∈ stretch) : shownOffset base t = Serial.dist base t :=
  h.shown t (mem_of_mem_stretches hs ht)

/-- The ends of a stretch are where its first and its last TSN lie. -/
theorem shownFirst_eq (h : q.Unwrapped base) (hs : stretch ∈ q.stretches base)
    (hne : stretch ≠ []) : shownFirst base stretch = Serial.dist base (stretch.head hne) := by
  rw [← h.shown_of_mem hs (List.head_mem hne)]
  unfold shownFirst
  rw [List.headD_eq_head?_getD, List.head?_eq_some_head hne]
  rfl

theorem shownLast_eq (h : q.Unwrapped base) (hs : stretch ∈ q.stretches base)
    (hne : stretch ≠ []) : shownLast base stretch = Serial.dist base (stretch.getLast hne) := by
  rw [← h.shown_of_mem hs (List.getLast_mem hne)]
  unfold shownLast
  rw [List.getLastD_eq_getLast?, List.getLast?_eq_some_getLast hne]
  rfl

/-- The TSNs of a stretch lie from its first to its last place. -/
theorem shown_between (h : q.Unwrapped base) (hs : stretch ∈ q.stretches base) {t : U32}
    (ht : t ∈ stretch) : shownFirst base stretch ≤ Serial.dist base t ∧
      Serial.dist base t ≤ shownLast base stretch := by
  have hne := List.ne_nil_of_mem ht
  have hinc := h.increasing_stretch hs
  rw [h.shownFirst_eq hs hne, h.shownLast_eq hs hne]
  constructor
  · have hsplit := List.cons_head_tail hne
    rw [← hsplit, List.pairwise_cons] at hinc
    rw [← hsplit] at ht
    rcases List.mem_cons.mp ht with heq | htail
    · rw [← heq]
    · exact Nat.le_of_lt (hinc.1 t htail)
  · have hsplit := List.dropLast_append_getLast hne
    rw [← hsplit, List.pairwise_append] at hinc
    rw [← hsplit, List.mem_append, List.mem_singleton] at ht
    rcases ht with hinit | heq
    · exact Nat.le_of_lt (hinc.2.2 t hinit _ (List.mem_singleton_self _))
    · rw [← heq]

theorem first_le_last (h : q.Unwrapped base) (hs : stretch ∈ q.stretches base) :
    2 ≤ shownFirst base stretch ∧ shownFirst base stretch ≤ shownLast base stretch := by
  have hne := List.ne_nil_of_mem_splitBy hs
  have hmem := List.head_mem hne
  have hbetween := h.shown_between hs hmem
  have hfar := h.far _ (mem_of_mem_stretches hs hmem)
  rw [h.shownFirst_eq hs hne] at hbetween ⊢
  omega

/-- Between two stretches in a row a place is left out. -/
theorem isChain_stretches (h : q.Unwrapped base) : (q.stretches base).IsChain fun s s' =>
    shownLast base s + 1 < shownFirst base s' := by
  refine (Stretch.isChain_splitBy (r := showsNext base) h.increasing).imp_of_mem_imp ?_
  intro s s' hs hs' hcut
  obtain ⟨hne, hne', hnot, hlt⟩ := hcut
  have hshown := h.shown_of_mem hs (List.getLast_mem hne)
  have hshown' := h.shown_of_mem hs' (List.head_mem hne')
  have hbound := shownOffset_lt base (s'.head hne')
  rw [showsNext, beq_eq_false_iff_ne, hshown, hshown'] at hnot
  rw [hshown'] at hbound
  rw [h.shownLast_eq hs hne, h.shownFirst_eq hs' hne']
  -- the last one lies before the first one, so the next place does not wrap
  rw [Nat.mod_eq_of_lt (by omega)] at hnot
  omega

theorem pairwise_stretches (h : q.Unwrapped base) : (q.stretches base).Pairwise fun s s' =>
    shownLast base s + 1 < shownFirst base s' := by
  let apart (s s' : List U32) : Prop :=
    shownLast base s + 1 < shownFirst base s' ∧ shownFirst base s' ≤ shownLast base s'
  have htrans : Trans apart apart apart := by
    refine ⟨fun {s s' s''} hss' hs's'' => ⟨?_, hs's''.2⟩⟩
    have hle := hss'.2
    have hlt := hss'.1
    have hlt' := hs's''.1
    omega
  have hchain : (q.stretches base).IsChain apart :=
    h.isChain_stretches.imp_of_mem_imp fun s s' _ hs' hlt => ⟨hlt, (h.first_le_last hs').2⟩
  exact (List.isChain_iff_pairwise.mp hchain).imp fun hboth => hboth.1

theorem describesHeld (h : q.Unwrapped base) (hmem : ∀ t, t ∈ q.sorted ↔ t ∈ q.chunkMap) :
    q.DescribesHeld base (q.getGapAckBlocks base) := by
  rw [getGapAckBlocks_eq hmem]
  refine ⟨?_, ?_, ?_⟩
  · intro b hb
    obtain ⟨s, hs, rfl⟩ := List.mem_map.mp hb
    rw [toNat_start_blockOf, toNat_end_blockOf]
    exact h.first_le_last hs
  · rw [List.pairwise_map]
    refine h.pairwise_stretches.imp fun {s s'} hlt => ?_
    rw [toNat_start_blockOf, toNat_end_blockOf]
    exact hlt
  · intro t
    rw [← hmem]
    constructor
    · intro ht
      rw [← List.flatten_splitBy (showsNext base) q.sorted, List.mem_flatten] at ht
      obtain ⟨s, hs, hts⟩ := ht
      obtain ⟨hfirst, hlast⟩ := h.shown_between hs hts
      refine ⟨blockOf base s, List.mem_map_of_mem hs, Serial.dist base t, ?_, ?_, ?_⟩
      · rw [toNat_start_blockOf]
        exact hfirst
      · rw [toNat_end_blockOf]
        exact hlast
      · exact (after_dist base t).symm
    · intro ⟨b, hb, i, hfirst, hlast, ht⟩
      -- within a stretch every offset is that of a TSN of the stretch
      obtain ⟨s, hs, rfl⟩ := List.mem_map.mp hb
      rw [toNat_start_blockOf] at hfirst
      rw [toNat_end_blockOf] at hlast
      obtain ⟨t', ht', hshown⟩ := exists_shownOffset hs hfirst hlast
      rw [h.shown_of_mem hs ht'] at hshown
      rw [ht, ← hshown, after_dist]
      exact mem_of_mem_stretches hs ht'

end Unwrapped

/-! ## With a wrap -/

/-- A TSN that some block covers at a place other than 0 is not the smaller number. -/
theorem DescribesHeld.base_le (hmem : ∀ t, t ∈ q.sorted ↔ t ∈ q.chunkMap) (hnear : q.HeldNear base)
    (h : q.DescribesHeld base (q.getGapAckBlocks base)) {t : U32} (ht : t ∈ q.chunkMap) :
    base ≤ t := by
  obtain ⟨b, hb, i, hfirst, hlast, hti⟩ := (h.held_iff t).mp ht
  have hpos := (h.wellFormed b hb).1
  rw [getGapAckBlocks_eq hmem] at hb
  obtain ⟨s, hs, rfl⟩ := List.mem_map.mp hb
  have hfirst' := hfirst
  rw [toNat_start_blockOf] at hfirst'
  rw [toNat_end_blockOf] at hlast
  -- the TSN that shows there is not the smaller number, and it is `t`
  obtain ⟨t', ht', hshown⟩ := exists_shownOffset hs hfirst' hlast
  have hheld := (hmem t').mp (mem_of_mem_stretches hs ht')
  have hle : base.toNat ≤ t'.toNat := by
    by_contra hlt
    unfold shownOffset at hshown
    rw [if_neg hlt] at hshown
    omega
  rw [shownOffset_eq_dist hle (hnear t' hheld).2] at hshown
  rw [hti, ← hshown, after_dist]
  exact hle

/-- **Gap ack blocks** describe the TSNs held if and only if none of them has wrapped. -/
theorem describesHeld_getGapAckBlocks_iff (h : q.Represents) (hnear : q.HeldNear base) :
    q.DescribesHeld base (q.getGapAckBlocks base) ↔ ∀ t ∈ q.chunkMap, base ≤ t :=
  ⟨fun hd _ ht => hd.base_le h.mem_iff hnear ht,
    fun hle => (h.unwrapped hnear hle).describesHeld h.mem_iff⟩

/-- The queue after the TSNs have been pushed. -/
def ofTsns (tsns : List U32) : PayloadQueue :=
  tsns.foldl (fun q tsn => q.pushNoCheck { tsn := tsn }) {}

theorem ofTsns_represents {tsns : List U32} (h : tsns.Nodup) : (ofTsns tsns).Represents := by
  have hcoherent : ∀ q : PayloadQueue, q.Coherent → (∀ t ∈ tsns, t ∉ q.chunkMap) →
      (tsns.foldl (fun q tsn => q.pushNoCheck { tsn := tsn }) q).Coherent := by
    induction tsns with
    | nil => exact fun q hq _ => hq
    | cons t tsns ih =>
      rw [List.nodup_cons] at h
      intro q hq hnew
      refine ih h.2 _ (hq.pushNoCheck (hnew t List.mem_cons_self)) ?_
      intro t' ht' hmem
      rw [Ahead.mem_pushNoCheck] at hmem
      rcases hmem with hold | heq
      · exact hnew t' (List.mem_cons_of_mem t ht') hold
      · rw [heq] at ht'
        exact h.1 ht'
  exact (hcoherent {} Coherent.new fun t _ hmem => by simp at hmem).represents

theorem mem_ofTsns {tsns : List U32} {t : U32} : t ∈ (ofTsns tsns).chunkMap ↔ t ∈ tsns := by
  have hfold : ∀ q : PayloadQueue, t ∈ (tsns.foldl (fun q tsn => q.pushNoCheck { tsn := tsn })
      q).chunkMap ↔ t ∈ q.chunkMap ∨ t ∈ tsns := by
    induction tsns with
    | nil => simp
    | cons t' tsns ih =>
      intro q
      rw [List.foldl_cons, ih, Ahead.mem_pushNoCheck, List.mem_cons, or_assoc]
  have hempty : t ∉ ({} : PayloadQueue).chunkMap := AList.notMem_empty t
  exact (hfold {}).trans (or_iff_right hempty)

theorem describesHeld_ofTsns : (ofTsns [105, 103, 104, 110]).DescribesHeld 100
    ((ofTsns [105, 103, 104, 110]).getGapAckBlocks 100) := by
  have hrep : (ofTsns [105, 103, 104, 110]).Represents := ofTsns_represents (by decide)
  have hnear : (ofTsns [105, 103, 104, 110]).HeldNear 100 := by
    intro t ht
    have hlist : [105, 103, 104, 110].all fun t : U32 =>
      2 ≤ Serial.dist 100 t && Serial.dist 100 t ≤ 65535 := by decide
    simpa using List.all_eq_true.mp hlist t (mem_ofTsns.mp ht)
  refine (describesHeld_getGapAckBlocks_iff hrep hnear).mpr fun t ht => ?_
  have hlist : [105, 103, 104, 110].all fun t : U32 => 100 ≤ t := by decide
  simpa using List.all_eq_true.mp hlist t (mem_ofTsns.mp ht)

/-- The third TSN after 2³² - 2 is 1: the smaller number, shown at 0. -/
theorem not_describesHeld_ofTsns_wrapped : (ofTsns [1]).HeldNear 0xfffffffe ∧
    ¬ (ofTsns [1]).DescribesHeld 0xfffffffe ((ofTsns [1]).getGapAckBlocks 0xfffffffe) := by
  constructor
  · intro t ht
    have hone : t = 1 := List.mem_singleton.mp (mem_ofTsns.mp ht)
    rw [hone]
    decide
  · have hblocks : (ofTsns [1]).getGapAckBlocks 0xfffffffe = [{ start := 0, end_ := 0 }] := by
      decide +kernel
    intro h
    rw [hblocks] at h
    have hpos := (h.wellFormed _ List.mem_cons_self).1
    cases hpos

end PayloadQueue

end Sctp
