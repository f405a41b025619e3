import Sctp.Queue.ReassemblyTheorems

/-!
# The order in which messages are delivered

SSNs are ordered only within half of their space. Counted from a base below all of them, the
sets that `next_ssn` has passed come first, and they are complete; the others follow.
-/

namespace Sctp

/-- The next SSN is one further from the base. -/
theorem dist16_succ {base x : U16} (h : Serial.dist base x + 1 < 2 ^ 16) :
    Serial.dist base (x + 1) = Serial.dist base x + 1 := by
  have hone : Serial.dist x (x + 1) = 1 := Serial.dist_add_ofNat x (k := 1) (by decide)
  rw [Serial.dist_add (b := x) (by omega), hone]

/-- Less than half the space apart, the order is that of the distances. -/
theorem sna16lt_iff_dist_lt {base a b : U16} (hab : Serial.dist base a < Serial.dist base b + 2 ^ 15)
    (hba : Serial.dist base b < Serial.dist base a + 2 ^ 15) :
    sna16lt a b = true ↔ Serial.dist base a < Serial.dist base b := by
  have hhalf : Serial.half 16 = 2 ^ 15 := rfl
  exact Serial.lt_iff_dist_lt (by decide) (by omega) (by omega)

/-- The first is not ahead, if it is not too far behind; half the space ahead is ahead. -/
theorem sna16lte_iff_dist_le {base a b : U16} (hab : Serial.dist base a ≤ Serial.dist base b + 2 ^ 15)
    (hba : Serial.dist base b < Serial.dist base a + 2 ^ 15) :
    sna16lte a b = true ↔ Serial.dist base a ≤ Serial.dist base b := by
  have hlte : sna16lte a b = true ↔ Serial.dist a b < 2 ^ 15 := Serial.lte_iff (by decide) a b
  rw [hlte]
  by_cases hle : Serial.dist base a ≤ Serial.dist base b
  · have hsub : Serial.dist a b = Serial.dist base b - Serial.dist base a := Serial.dist_sub hle
    omega
  · have hsub : Serial.dist b a = Serial.dist base a - Serial.dist base b :=
      Serial.dist_sub (by omega)
    have hne : b ≠ a := by
      intro heq
      rw [heq] at hle
      exact hle (Nat.le_refl _)
    have hback : Serial.dist a b = 2 ^ 16 - Serial.dist b a := Serial.dist_comm_of_ne hne
    omega

/-- `sna16gt` is the negation of `sna16lte`. -/
theorem sna16lte_eq_not_sna16gt (a b : U16) : sna16lte a b = !sna16gt a b := by
  have hlte : sna16lte a b = true ↔ Serial.dist a b < 2 ^ 15 := Serial.lte_iff (by decide) a b
  have hgt := sna16gt_iff a b
  rw [Bool.eq_iff_iff, hlte, Bool.not_eq_true', ← Bool.not_eq_true, hgt, Nat.not_le]

/-! ## Sets -/

/-- TSNs are contiguous if each is the one before plus one. -/
theorem isContiguousFrom_iff {c : ChunkPayloadData} {cs : List ChunkPayloadData} :
    isContiguousFrom c.tsn cs = true ↔ (c :: cs).IsChain fun c c' => c'.tsn = c.tsn + 1 := by
  induction cs generalizing c with
  | nil => exact ⟨fun _ => List.isChain_singleton c, fun _ => rfl⟩
  | cons d cs ih =>
    unfold isContiguousFrom
    rw [Bool.and_eq_true, decide_eq_true_eq, ih, List.isChain_cons_cons]

/-- A complete set whose chunks have its SSN is a message. -/
theorem ChunkSet.isOrderedMessage {s : ChunkSet} (h : s.isComplete = true)
    (hssn : ∀ c ∈ s.chunks, c.streamSequenceNumber = s.ssn) : IsOrderedMessage s.ssn s.chunks := by
  unfold ChunkSet.isComplete at h
  cases hchunks : s.chunks with
  | nil =>
    rw [hchunks] at h
    cases h
  | cons c cs =>
    rw [hchunks] at h
    dsimp only at h
    rw [Bool.and_eq_true, Bool.and_eq_true] at h
    obtain ⟨⟨hb, he⟩, hchain⟩ := h
    have hlast : (c :: cs).getLast? = some ((c :: cs).getLast (List.cons_ne_nil c cs)) :=
      List.getLast?_eq_some_getLast _
    refine ⟨isContiguousFrom_iff.mp hchain, ⟨c, rfl, hb⟩, ⟨_, hlast, ?_⟩, ?_⟩
    · rw [hlast] at he
      exact he
    · rw [← hchunks]
      exact hssn

namespace ReassemblyQueue

variable {q : ReassemblyQueue} {chunk : ChunkPayloadData} {base : U16}

/-! ## Which set gets a chunk -/

/-- A push into a set leaves the list of SSNs. -/
theorem ssn_pushOrdered {sets sets' : List ChunkSet} {ok : Bool}
    (h : pushOrdered chunk sets = some (sets', ok)) : sets'.map (·.ssn) = sets.map (·.ssn) := by
  induction sets generalizing sets' ok with
  | nil => cases h
  | cons s sets ih =>
    unfold pushOrdered at h
    split at h
    · have heq : ((s.push chunk).1 :: sets, (s.push chunk).2) = (sets', ok) := Option.some.inj h
      rw [← (Prod.mk.inj heq).1, List.map_cons, List.map_cons, ChunkSet.ssn_push]
    · obtain ⟨⟨rest, ok'⟩, hrest, heq⟩ := Option.map_eq_some_iff.mp h
      injection heq with hsets _
      rw [← hsets, List.map_cons, List.map_cons, ih hrest]

/-- A set afterwards was there before, or it is the one that got the chunk. -/
theorem mem_pushOrdered {sets sets' : List ChunkSet} {ok : Bool}
    (h : pushOrdered chunk sets = some (sets', ok)) {s' : ChunkSet} (hs' : s' ∈ sets') :
    s' ∈ sets ∨ ∃ s ∈ sets, s.ssn = chunk.streamSequenceNumber ∧ s' = (s.push chunk).1 := by
  induction sets generalizing sets' ok with
  | nil => cases h
  | cons s sets ih =>
    unfold pushOrdered at h
    split at h
    · rename_i hssn
      have heq : ((s.push chunk).1 :: sets, (s.push chunk).2) = (sets', ok) := Option.some.inj h
      rw [← (Prod.mk.inj heq).1] at hs'
      rcases List.mem_cons.mp hs' with heq | hin
      · exact Or.inr ⟨s, List.mem_cons_self, hssn, heq⟩
      · exact Or.inl (List.mem_cons_of_mem s hin)
    · obtain ⟨⟨rest, ok'⟩, hrest, heq⟩ := Option.map_eq_some_iff.mp h
      injection heq with hsets _
      rw [← hsets] at hs'
      rcases List.mem_cons.mp hs' with heq | hin
      · exact Or.inl (heq ▸ List.mem_cons_self)
      · rcases ih hrest hin with hold | ⟨t, ht, hssn, heq⟩
        · exact Or.inl (List.mem_cons_of_mem s hold)
        · exact Or.inr ⟨t, List.mem_cons_of_mem s ht, hssn, heq⟩

/-- Without a set for it the SSN is new. -/
theorem ssn_ne_of_pushOrdered_none {sets : List ChunkSet} (h : pushOrdered chunk sets = none) :
    ∀ s ∈ sets, s.ssn ≠ chunk.streamSequenceNumber := by
  intro s hs heq
  have hfind := List.find?_eq_none.mp (pushOrdered_eq_none h) s hs
  exact hfind (decide_eq_true heq)

/-! ## The order, counted from a base -/

/-- The SSNs held lie less than half the space from one another and from the next one, in
order, and what the next one has passed is complete. -/
structure InOrder (base : U16) (q : ReassemblyQueue) : Prop where
  spread : ∀ s ∈ q.ordered, ∀ s' ∈ q.ordered,
    Serial.dist base s.ssn < Serial.dist base s'.ssn + 2 ^ 15
  behind : ∀ s ∈ q.ordered, Serial.dist base q.nextSsn < Serial.dist base s.ssn + 2 ^ 15
  ahead : ∀ s ∈ q.ordered, Serial.dist base s.ssn ≤ Serial.dist base q.nextSsn + 2 ^ 15
  increasing : q.ordered.Pairwise fun s s' => Serial.dist base s.ssn < Serial.dist base s'.ssn
  passed : ∀ s ∈ q.ordered, Serial.dist base s.ssn < Serial.dist base q.nextSsn →
    s.isComplete = true

namespace InOrder

/-- Without ordered sets there is nothing to be out of order. -/
theorem of_nil (h : q.ordered = []) : q.InOrder base := by
  have hnone : ∀ s ∈ q.ordered, False := by
    intro s hs
    rw [h] at hs
    cases hs
  refine ⟨fun s hs => (hnone s hs).elim, fun s hs => (hnone s hs).elim,
    fun s hs => (hnone s hs).elim, ?_, fun s hs => (hnone s hs).elim⟩
  rw [h]
  exact List.Pairwise.nil

/-- The same sets and the same next SSN. -/
theorem congr {q' : ReassemblyQueue} (h : q.InOrder base) (hordered : q'.ordered = q.ordered)
    (hnext : q'.nextSsn = q.nextSsn) : q'.InOrder base := by
  obtain ⟨hspread, hbehind, hahead, hinc, hpassed⟩ := h
  rw [← hordered] at hspread hbehind hahead hinc hpassed
  rw [← hnext] at hbehind hahead hpassed
  exact ⟨hspread, hbehind, hahead, hinc, hpassed⟩

/-- A set may be read if it is not behind the next SSN. -/
theorem lte_next_iff (h : q.InOrder base) {s : ChunkSet} (hs : s ∈ q.ordered) :
    sna16lte s.ssn q.nextSsn = true ↔ Serial.dist base s.ssn ≤ Serial.dist base q.nextSsn :=
  sna16lte_iff_dist_le (h.ahead s hs) (h.behind s hs)

/-- Sets in order are sorted. -/
theorem orderedSorted (h : q.InOrder base) : q.OrderedSorted := by
  refine ⟨?_, ?_, ?_⟩
  · refine h.increasing.imp_of_mem fun {s s'} hs hs' hlt => ?_
    exact (sna16lt_iff_dist_lt (h.spread s hs s' hs') (h.spread s' hs' s hs)).mpr hlt
  · rw [List.Nodup, List.pairwise_map]
    refine h.increasing.imp fun {s s'} hlt heq => ?_
    rw [heq] at hlt
    exact Nat.lt_irrefl _ hlt
  · intro s hs hdue
    unfold due at hdue
    rw [Bool.and_eq_true, h.lte_next_iff hs] at hdue
    obtain ⟨first, rest, hordered⟩ := List.exists_cons_of_ne_nil (List.ne_nil_of_mem hs)
    have hfirst : first ∈ q.ordered := by
      rw [hordered]
      exact List.mem_cons_self
    have hinc := h.increasing
    rw [hordered, List.pairwise_cons] at hinc
    rw [hordered, List.head?_cons, Option.any_some]
    unfold due
    rw [Bool.and_eq_true, h.lte_next_iff hfirst]
    rw [hordered] at hs
    rcases List.mem_cons.mp hs with rfl | hrest
    · exact hdue
    · -- the first one comes before one that is due, so it has been passed
      have hlt := hinc.1 s hrest
      exact ⟨h.passed first hfirst (by omega), by omega⟩

/-! ### Steps -/

/-- A chunk for a set that is held changes this set only, and it has not been passed. -/
theorem push_some (h : q.InOrder base) {ordered : List ChunkSet} {ok : Bool} {n : ℕ}
    (hpush : pushOrdered chunk q.ordered = some (ordered, ok))
    (hle : Serial.dist base q.nextSsn ≤ Serial.dist base chunk.streamSequenceNumber) :
    ({ q with nBytes := n, ordered } : ReassemblyQueue).InOrder base := by
  have hssn := ssn_pushOrdered hpush
  have hmem : ∀ s' ∈ ordered, ∃ s ∈ q.ordered, s.ssn = s'.ssn := by
    intro s' hs'
    have hin : s'.ssn ∈ q.ordered.map (·.ssn) := by
      rw [← hssn]
      exact List.mem_map_of_mem hs'
    obtain ⟨s, hs, heq⟩ := List.mem_map.mp hin
    exact ⟨s, hs, heq⟩
  refine ⟨?_, ?_, ?_, ?_, ?_⟩
  · intro s hs s' hs'
    obtain ⟨t, ht, heq⟩ := hmem s hs
    obtain ⟨t', ht', heq'⟩ := hmem s' hs'
    rw [← heq, ← heq']
    exact h.spread t ht t' ht'
  · intro s hs
    obtain ⟨t, ht, heq⟩ := hmem s hs
    rw [← heq]
    exact h.behind t ht
  · intro s hs
    obtain ⟨t, ht, heq⟩ := hmem s hs
    rw [← heq]
    exact h.ahead t ht
  · have hinc := h.increasing
    -- the SSNs are those of before, one by one, so their order is too
    have hmap : (q.ordered.map (·.ssn)).Pairwise fun x y => Serial.dist base x < Serial.dist base y :=
      List.pairwise_map.mpr hinc
    rw [← hssn, List.pairwise_map] at hmap
    exact hmap
  · intro s' hs' hlt
    -- the set that got the chunk may have become incomplete again, but it is not behind
    rcases mem_pushOrdered hpush hs' with hold | ⟨s, _, hs, heq⟩
    · exact h.passed s' hold hlt
    · have hssn' : s'.ssn = chunk.streamSequenceNumber := by rw [heq, ChunkSet.ssn_push, hs]
      rw [hssn'] at hlt
      exact absurd hlt (Nat.not_lt.mpr hle)

/-- A new set finds its place, if it is not half the space away from another one. -/
theorem push_none (h : q.InOrder base) {n : ℕ} {cset : ChunkSet}
    (hnew : ∀ s ∈ q.ordered, s.ssn ≠ cset.ssn)
    (hle : Serial.dist base q.nextSsn ≤ Serial.dist base cset.ssn)
    (hahead : Serial.dist base cset.ssn ≤ Serial.dist base q.nextSsn + 2 ^ 15)
    (hnear : ∀ s ∈ q.ordered, Serial.dist base s.ssn < Serial.dist base cset.ssn + 2 ^ 15 ∧
      Serial.dist base cset.ssn < Serial.dist base s.ssn + 2 ^ 15) :
    ({ q with nBytes := n, ordered := sortChunksBySsn (q.ordered ++ [cset]) } :
      ReassemblyQueue).InOrder base := by
  have hmem : ∀ s, s ∈ sortChunksBySsn (q.ordered ++ [cset]) → s ∈ q.ordered ∨ s = cset := by
    intro s hs
    have hs' := StableSort.mem_sortBy.mp hs
    rwa [List.mem_append, List.mem_singleton] at hs'
  have hspread : ∀ s, (s ∈ q.ordered ∨ s = cset) → ∀ s', (s' ∈ q.ordered ∨ s' = cset) →
      Serial.dist base s.ssn < Serial.dist base s'.ssn + 2 ^ 15 := by
    intro s hs s' hs'
    rcases hs with hs | rfl
    · rcases hs' with hs' | rfl
      · exact h.spread s hs s' hs'
      · exact (hnear s hs).1
    · rcases hs' with hs' | rfl
      · exact (hnear s' hs').2
      · omega
  refine ⟨fun s hs s' hs' => hspread s (hmem s hs) s' (hmem s' hs'), ?_, ?_, ?_, ?_⟩
  · intro s hs
    show Serial.dist base q.nextSsn < _
    rcases hmem s hs with hold | rfl
    · exact h.behind s hold
    · omega
  · intro s hs
    rcases hmem s hs with hold | rfl
    · exact h.ahead s hold
    · exact hahead
  · have hranks : StableSort.RanksOn (fun a b : ChunkSet => sna16lt a.ssn b.ssn)
    -- on sets this close `sort_by` compares distances, so its result is in order
        (fun s => Serial.dist base s.ssn) (q.ordered ++ [cset]) := by
      intro a ha b hb
      rw [List.mem_append, List.mem_singleton] at ha hb
      exact sna16lt_iff_dist_lt (hspread a ha b hb) (hspread b hb a ha)
    refine StableSort.sortBy_pairwise_lt hranks ?_
    rw [List.map_append, List.nodup_append]
    refine ⟨?_, List.nodup_singleton _, ?_⟩
    · rw [List.Nodup, List.pairwise_map]
      exact h.increasing.imp Nat.ne_of_lt
    · intro x hx y hy heq
      obtain ⟨s, hs, rfl⟩ := List.mem_map.mp hx
      rw [List.map_singleton, List.mem_singleton] at hy
      rw [hy] at heq
      exact hnew s hs (Serial.dist_inj heq)
  · intro s hs hlt
    rcases hmem s hs with hold | rfl
    · exact h.passed s hold hlt
    · exact absurd hlt (Nat.not_lt.mpr hle)

/-- The set that is read was the first, and the next one is not passed by it. -/
theorem take (h : q.InOrder base) {cset : ChunkSet} {rest : List ChunkSet}
    (hordered : q.ordered = cset :: rest) {n : ℕ} {next : U16}
    (hnext : next = if cset.ssn = q.nextSsn then q.nextSsn + 1 else q.nextSsn)
    (hsucc : cset.ssn = q.nextSsn → Serial.dist base q.nextSsn + 1 < 2 ^ 16) :
    ({ q with nBytes := n, nextSsn := next, ordered := rest } : ReassemblyQueue).InOrder base := by
  have hin : ∀ s ∈ rest, s ∈ q.ordered := by
    intro s hs
    rw [hordered]
    exact List.mem_cons_of_mem cset hs
  have hinc := h.increasing
  rw [hordered, List.pairwise_cons] at hinc
  -- only the set of the next SSN moves it on; then every other set is beyond the old one
  by_cases heq : cset.ssn = q.nextSsn
  · rw [if_pos heq] at hnext
    have hdist : Serial.dist base next = Serial.dist base q.nextSsn + 1 := by
      rw [hnext]
      exact dist16_succ (hsucc heq)
    have hbeyond : ∀ s ∈ rest, Serial.dist base q.nextSsn < Serial.dist base s.ssn := by
      intro s hs
      rw [← heq]
      exact hinc.1 s hs
    refine ⟨fun s hs s' hs' => h.spread s (hin s hs) s' (hin s' hs'), ?_, ?_, hinc.2, ?_⟩
    · intro s hs
      have hlt := hbeyond s hs
      show Serial.dist base next < _
      omega
    · intro s hs
      have hle := h.ahead s (hin s hs)
      show _ ≤ Serial.dist base next + 2 ^ 15
      omega
    · intro s hs hlt
      have hlt' := hbeyond s hs
      have hlt'' : Serial.dist base s.ssn < Serial.dist base next := hlt
      omega
  · rw [if_neg heq] at hnext
    rw [hnext]
    exact ⟨fun s hs s' hs' => h.spread s (hin s hs) s' (hin s' hs'),
      fun s hs => h.behind s (hin s hs), fun s hs => h.ahead s (hin s hs), hinc.2,
      fun s hs hlt => h.passed s (hin s hs) hlt⟩

/-- Fewer sets are in order, too. -/
theorem filter (h : q.InOrder base) (p : ChunkSet → Bool) (n : ℕ) :
    ({ q with nBytes := n, ordered := q.ordered.filter p } : ReassemblyQueue).InOrder base where
  spread s hs s' hs' := h.spread s (List.mem_of_mem_filter hs) s' (List.mem_of_mem_filter hs')
  behind s hs := h.behind s (List.mem_of_mem_filter hs)
  ahead s hs := h.ahead s (List.mem_of_mem_filter hs)
  increasing := h.increasing.filter p
  passed s hs hlt := h.passed s (List.mem_of_mem_filter hs) hlt

/-- A forward leaves only complete sets behind the next SSN. -/
theorem forward (h : q.InOrder base) {lastSsn : U16} {n : ℕ}
    (hle : Serial.dist base q.nextSsn ≤ Serial.dist base lastSsn)
    (hsucc : Serial.dist base lastSsn + 1 < 2 ^ 16)
    (hbehind : ∀ s ∈ q.ordered, skippedBy lastSsn s = false →
      Serial.dist base lastSsn + 1 < Serial.dist base s.ssn + 2 ^ 15) :
    ({ q with
        nBytes := n
        nextSsn := lastSsn + 1
        ordered := q.ordered.filter fun s => !skippedBy lastSsn s } :
      ReassemblyQueue).InOrder base := by
  have hdist := dist16_succ hsucc
  have hkept : ∀ s ∈ q.ordered.filter fun s => !skippedBy lastSsn s,
      s ∈ q.ordered ∧ skippedBy lastSsn s = false := by
    intro s hs
    obtain ⟨hin, hnot⟩ := List.mem_filter.mp hs
    exact ⟨hin, by simpa using hnot⟩
  have hfilter := h.filter (fun s => !skippedBy lastSsn s) n
  refine ⟨hfilter.spread, ?_, ?_, hfilter.increasing, ?_⟩
  · intro s hs
    obtain ⟨hin, hnot⟩ := hkept s hs
    show Serial.dist base (lastSsn + 1) < _
    rw [hdist]
    exact hbehind s hin hnot
  · intro s hs
    have hahead := h.ahead s (hkept s hs).1
    show _ ≤ Serial.dist base (lastSsn + 1) + 2 ^ 15
    omega
  · intro s hs hlt
    obtain ⟨hin, hnot⟩ := hkept s hs
    have hnear := hbehind s hin hnot
    have hlt' : Serial.dist base s.ssn < Serial.dist base (lastSsn + 1) := hlt
    have hle' : Serial.dist base s.ssn ≤ Serial.dist base lastSsn := by omega
    have hahead : Serial.dist base s.ssn ≤ Serial.dist base lastSsn + 2 ^ 15 := by omega
    have hback : Serial.dist base lastSsn < Serial.dist base s.ssn + 2 ^ 15 := by omega
    have hlte : sna16lte s.ssn lastSsn = true := (sna16lte_iff_dist_le hahead hback).mpr hle'
    unfold skippedBy at hnot
    rw [hlte, Bool.true_and, Bool.not_eq_false'] at hnot
    exact hnot

/-- The base may go on, up to what is held. -/
theorem rebase (h : q.InOrder base) {base' : U16}
    (hnext : Serial.dist base base' ≤ Serial.dist base q.nextSsn)
    (hheld : ∀ s ∈ q.ordered, Serial.dist base base' ≤ Serial.dist base s.ssn) :
    q.InOrder base' := by
  have hn : Serial.dist base' q.nextSsn = Serial.dist base q.nextSsn - Serial.dist base base' :=
    Serial.dist_sub hnext
  have hs : ∀ s ∈ q.ordered, Serial.dist base' s.ssn =
      Serial.dist base s.ssn - Serial.dist base base' := fun s hs => Serial.dist_sub (hheld s hs)
  -- all distances become smaller by the same amount
  refine ⟨?_, ?_, ?_, ?_, ?_⟩
  · intro s hin s' hin'
    have hd := hs s hin
    have hd' := hs s' hin'
    have hle := hheld s hin
    have hle' := hheld s' hin'
    have hspread := h.spread s hin s' hin'
    omega
  · intro s hin
    have hd := hs s hin
    have hle := hheld s hin
    have hbehind := h.behind s hin
    omega
  · intro s hin
    have hd := hs s hin
    have hle := hheld s hin
    have hahead := h.ahead s hin
    omega
  · refine h.increasing.imp_of_mem fun {s s'} hin hin' hlt => ?_
    have hd := hs s hin
    have hd' := hs s' hin'
    have hle := hheld s hin
    omega
  · intro s hin hlt
    have hd := hs s hin
    have hle := hheld s hin
    exact h.passed s hin (by omega)

end InOrder

/-! ## Whatever is pushed -/

/-- The base from which places are counted. -/
def placeBase (q : ReassemblyQueue) : U16 := q.nextSsn + BitVec.ofNat 16 (2 ^ 15 + 1)

/-- The place base is half the space behind the next SSN, less one. -/
theorem dist_placeBase_next (q : ReassemblyQueue) :
    Serial.dist q.placeBase q.nextSsn = 2 ^ 15 - 1 := by
  have hdist : Serial.dist q.nextSsn q.placeBase = 2 ^ 15 + 1 :=
    Serial.dist_add_ofNat q.nextSsn (by decide)
  have hne : q.nextSsn ≠ q.placeBase := by
    intro heq
    rw [← heq, Serial.dist_self] at hdist
    omega
  have hback : Serial.dist q.placeBase q.nextSsn = 2 ^ 16 - Serial.dist q.nextSsn q.placeBase :=
    Serial.dist_comm_of_ne hne
  omega

/-- What is not behind the next SSN by the comparison has its place behind it. -/
theorem dist_placeBase_of_not_lt {x : U16} (h : sna16lt x q.nextSsn = false) :
    Serial.dist q.placeBase q.nextSsn ≤ Serial.dist q.placeBase x ∧
      Serial.dist q.placeBase x ≤ Serial.dist q.placeBase q.nextSsn + 2 ^ 15 := by
  have hnext := q.dist_placeBase_next
  have hlt := Serial.dist_lt q.placeBase x
  refine ⟨?_, by omega⟩
  by_contra hcon
  have hwithin : Serial.dist q.placeBase x < Serial.dist q.placeBase q.nextSsn + 2 ^ 15 := by omega
  have hwithin' : Serial.dist q.placeBase q.nextSsn < Serial.dist q.placeBase x + 2 ^ 15 := by omega
  have hbefore := (sna16lt_iff_dist_lt hwithin hwithin').mpr (by omega)
  rw [h] at hbefore
  cases hbefore

/-- The places go on with the next SSN. -/
theorem InOrder.advance {q q' : ReassemblyQueue} (h : q'.InOrder q.placeBase) {d : ℕ}
    (hd : Serial.dist q.placeBase q'.nextSsn = Serial.dist q.placeBase q.nextSsn + d)
    (hheld : ∀ s ∈ q'.ordered, d ≤ Serial.dist q.placeBase s.ssn) : q'.InOrder q'.placeBase := by
  have hnext := q.dist_placeBase_next
  have hnext' := q'.dist_placeBase_next
  have hlt := Serial.dist_lt q.placeBase q'.nextSsn
  have hbase : Serial.dist q.placeBase q'.placeBase = d := by
    have hfrom : q.placeBase + BitVec.ofNat 16 d = q'.placeBase := by
      have hq : q'.nextSsn = q.nextSsn + BitVec.ofNat 16 d := by
        rw [← Serial.add_dist q.placeBase q'.nextSsn, hd, BitVec.ofNat_add, ← BitVec.add_assoc,
          Serial.add_dist]
      unfold placeBase
      rw [hq, BitVec.add_assoc, BitVec.add_assoc, BitVec.add_comm (BitVec.ofNat 16 d)]
    rw [← hfrom]
    exact Serial.dist_add_ofNat _ (by omega)
  refine h.rebase ?_ fun s hs => ?_
  · rw [hbase]
    omega
  · rw [hbase]
    exact hheld s hs

/-- A push puts a new set in its place. -/
theorem InOrder.push (h : q.InOrder q.placeBase) (hop : q.KeepsOrder (.push chunk)) :
    (q.push chunk).1.InOrder (q.push chunk).1.placeBase := by
  rcases q.push_cases chunk with ⟨_, heq⟩ | ⟨_, _, ⟨_, _, heq⟩, _⟩ | ⟨hacc, hu, hlt, hord⟩
  · rw [heq]
    exact h
  · rw [heq]
    exact h.congr rfl rfl
  · obtain ⟨hle, hahead⟩ := dist_placeBase_of_not_lt hlt
    rcases hord with ⟨ordered, ok, hpush, heq⟩ | ⟨hpush, heq⟩
    · rw [heq]
      exact h.push_some hpush hle
    · have hnew := ssn_ne_of_pushOrdered_none hpush
      have hssn : ((ChunkSet.new chunk.streamSequenceNumber chunk.payloadType).push chunk).1.ssn =
        chunk.streamSequenceNumber := ChunkSet.ssn_push _ chunk
      rw [heq]
      refine h.push_none ?_ ?_ ?_ ?_
      · rw [hssn]
        exact hnew
      · rw [hssn]
        exact hle
      · rw [hssn]
        exact hahead
      · rw [hssn]
        exact hop hacc hu hnew

/-- A read takes the first set, and the others are where they were as seen from the next SSN. -/
theorem InOrder.read (h : q.InOrder q.placeBase) (bufLen : ℕ) :
    (q.read bufLen).1.InOrder (q.read bufLen).1.placeBase := by
  rw [read_fst]
  have hnext := q.dist_placeBase_next
  rcases q.takeReadable_cases with heq | ⟨cset, rest, hu, heq⟩ | ⟨cset, rest, hu, ho, _, _, heq⟩
  · rw [heq]
    exact h.congr rfl rfl
  · rw [heq]
    exact h.congr rfl rfl
  · rw [heq]
    let n := q.nBytes - chunksBytes (q.taken (.read bufLen))
    let next := if cset.ssn = q.nextSsn then q.nextSsn + 1 else q.nextSsn
    have htake : ({ q with nBytes := n, nextSsn := next, ordered := rest } :
      ReassemblyQueue).InOrder q.placeBase := h.take ho rfl fun _ => by omega
    show ({ q with nBytes := n, nextSsn := next, ordered := rest } : ReassemblyQueue).InOrder _
    have hinc := h.increasing
    rw [ho, List.pairwise_cons] at hinc
    -- the base moves on with the next SSN, by one or not at all
    by_cases hssn : cset.ssn = q.nextSsn
    · have hn : next = q.nextSsn + 1 := if_pos hssn
      refine htake.advance (d := 1) ?_ ?_
      · show Serial.dist q.placeBase next = _
        rw [hn]
        exact dist16_succ (by omega)
      · intro s hs
        have hlt := hinc.1 s hs
        omega
    · have hn : next = q.nextSsn := if_neg hssn
      refine htake.advance (d := 0) ?_ fun s _ => Nat.zero_le _
      show Serial.dist q.placeBase next = _
      rw [hn]
      rfl

/-- A FORWARD TSN drops sets and moves the next SSN on. -/
theorem InOrder.forwardTsnForOrdered (h : q.InOrder q.placeBase) {lastSsn : U16}
    (hop : q.KeepsOrder (.forwardTsnForOrdered lastSsn)) :
    (q.forwardTsnForOrdered lastSsn).InOrder (q.forwardTsnForOrdered lastSsn).placeBase := by
  rw [forwardTsnForOrdered_eq]
  have hnext := q.dist_placeBase_next
  by_cases hlte : sna16lte q.nextSsn lastSsn = true
  · rw [if_pos hlte]
    have hfar : Serial.dist q.nextSsn lastSsn < 2 ^ 15 := (Serial.lte_iff (by decide) _ _).mp hlte
    have hlast : Serial.dist q.placeBase lastSsn =
        Serial.dist q.placeBase q.nextSsn + Serial.dist q.nextSsn lastSsn :=
      Serial.dist_add (by omega)
    have hsucc : Serial.dist q.placeBase (lastSsn + 1) = Serial.dist q.placeBase lastSsn + 1 :=
      dist16_succ (by omega)
    -- what is kept behind the new next SSN was due, and is still due
    have hkept : ∀ s ∈ q.ordered, skippedBy lastSsn s = false →
        Serial.dist q.nextSsn lastSsn + 1 ≤ Serial.dist q.placeBase s.ssn := by
      intro s hs hnot
      by_cases hpast : Serial.dist q.placeBase s.ssn ≤ Serial.dist q.placeBase q.nextSsn
      · have hlteNext := (h.lte_next_iff hs).mpr hpast
        have hcomplete : s.isComplete = true := by
          rcases Nat.lt_or_eq_of_le hpast with hlt | heq
          · exact h.passed s hs hlt
          · have hssn : s.ssn = q.nextSsn := Serial.dist_inj heq
            unfold skippedBy at hnot
            rw [hssn, hlte, Bool.true_and, Bool.not_eq_false'] at hnot
            exact hnot
        have hdue : q.due s = true := by
          unfold due
          rw [hcomplete, hlteNext]
          rfl
        have hstill := hop hlte s hs hdue
        have hdist : Serial.dist s.ssn (lastSsn + 1) < 2 ^ 15 :=
          (Serial.lte_iff (by decide) _ _).mp hstill
        have hle : Serial.dist q.placeBase s.ssn ≤ Serial.dist q.placeBase (lastSsn + 1) := by omega
        have hsub : Serial.dist s.ssn (lastSsn + 1) =
            Serial.dist q.placeBase (lastSsn + 1) - Serial.dist q.placeBase s.ssn :=
          Serial.dist_sub hle
        omega
      · omega
    let n := q.nBytes - chunksBytes (q.discarded (.forwardTsnForOrdered lastSsn))
    have hforward : ({ q with
        nBytes := n
        nextSsn := lastSsn + 1
        ordered := q.ordered.filter fun s => !skippedBy lastSsn s } :
        ReassemblyQueue).InOrder q.placeBase := by
      refine h.forward (by omega) (by omega) fun s hs hnot => ?_
      have hk := hkept s hs hnot
      omega
    refine hforward.advance (d := Serial.dist q.nextSsn lastSsn + 1) ?_ ?_
    · show Serial.dist q.placeBase (lastSsn + 1) = _
      omega
    · intro s hs
      obtain ⟨hin, hnot⟩ := List.mem_filter.mp hs
      exact hkept s hin (by simpa using hnot)
  · rw [if_neg hlte]
    exact h.filter _ _

/-- **One operation** that keeps the order. -/
theorem InOrder.applyOp (q : ReassemblyQueue) (op : ReassemblyOp) (hop : q.KeepsOrder op)
    (h : q.InOrder q.placeBase) : (q.applyOp op).InOrder (q.applyOp op).placeBase := by
  cases op with
  | push chunk => exact h.push hop
  | read bufLen => exact h.read bufLen
  | forwardTsnForOrdered lastSsn => exact h.forwardTsnForOrdered hop
  | forwardTsnForUnordered newCumulativeTsn => exact h.congr rfl rfl

/-- **The ordered sets are sorted** as long as no two that are held lie half the space apart. -/
theorem orderedSorted_of_keepsOrder {si : U16} {ops : List ReassemblyOp}
    (h : Runs.Along applyOp KeepsOrder (new si) ops) :
    (Runs.run applyOp (new si) ops).OrderedSorted := by
  have hnew : (new si).InOrder (new si).placeBase := InOrder.of_nil rfl
  exact (Runs.run_invariant_along (I := fun q : ReassemblyQueue => q.InOrder q.placeBase)
    InOrder.applyOp hnew h).orderedSorted

/-- Two messages ahead, the second one first, and a forward past the rest of the third. -/
def orderedOps : List ReassemblyOp :=
  [.push { tsn := 4, streamSequenceNumber := 2, beginningFragment := true, endingFragment := true },
    .push { tsn := 1, streamSequenceNumber := 0, beginningFragment := true, endingFragment := true },
    .push { tsn := 2, streamSequenceNumber := 1, beginningFragment := true },
    .read 10, .forwardTsnForOrdered 1, .read 10]

theorem orderedSorted_orderedOps : (Runs.run applyOp (new 0) orderedOps).OrderedSorted :=
  orderedSorted_of_keepsOrder (by decide)

/-- Two fragments that are half the space apart. -/
def oppositeOps : List ReassemblyOp :=
  [.push { tsn := 1, streamSequenceNumber := 0, beginningFragment := true },
    .push { tsn := 2, streamSequenceNumber := 32768, beginningFragment := true }]

/-- A whole message that stays behind a forward, and then one further on. -/
def hidingOps : List ReassemblyOp :=
  [.push { tsn := 1, streamSequenceNumber := 0, beginningFragment := true, endingFragment := true },
    .forwardTsnForOrdered 10,
    .push { tsn := 2, streamSequenceNumber := 32773, beginningFragment := true }]

/-- Of two SSNs half the space apart neither is less; and a message that is due is hidden behind
one that is still to come. -/
theorem not_orderedSorted :
    ¬ (Runs.run applyOp (new 0) oppositeOps).OrderedSorted ∧
      ¬ (∀ s ∈ (Runs.run applyOp (new 0) hidingOps).ordered,
        (Runs.run applyOp (new 0) hidingOps).due s = true →
          (Runs.run applyOp (new 0) hidingOps).ordered.head?.any
            (Runs.run applyOp (new 0) hidingOps).due = true) :=
  ⟨fun h => absurd h.increasing (by decide), by decide⟩

end ReassemblyQueue

end Sctp
