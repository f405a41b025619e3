import Mathlib.Algebra.GroupWithZero.Nat
import Mathlib.Data.List.AList

/-!
# Finite maps with one value type

`AList` with a constant value family, used for `HashMap`s: what Mathlib has (`lookup`,
`insert`, `erase` and their lemmas) is used as it is. Added here are the updates through
a reference (`modify` for `get_mut`, `mapVals` for `values_mut`) and sums over the values.
-/

/-- A finite map from `κ` to `ν`. -/
abbrev AssocMap (κ ν : Type*) := AList fun _ : κ => ν

namespace AssocMap

variable {κ ν : Type*}

/-- The values, in the order of the entries. -/
def values (m : AssocMap κ ν) : List ν := m.entries.map fun e => e.2

/-- Replaces every value, the keys stay. -/
def mapVals (f : κ → ν → ν) (m : AssocMap κ ν) : AssocMap κ ν where
  entries := m.entries.map fun e => ⟨e.1, f e.1 e.2⟩
  nodupKeys := List.NodupKeys.map₂ f _ m.nodupKeys

/-- The total of `g` over the values. -/
def sumOf (g : ν → ℕ) (m : AssocMap κ ν) : ℕ := (m.values.map g).sum

/-- A map over the values keeps the keys. -/
@[simp] theorem keys_mapVals (f : κ → ν → ν) (m : AssocMap κ ν) :
    (mapVals f m).keys = m.keys := List.map₂_keys f m.entries

@[simp] theorem mem_mapVals (f : κ → ν → ν) (m : AssocMap κ ν) (k : κ) :
    k ∈ mapVals f m ↔ k ∈ m := by
  rw [AList.mem_keys, AList.mem_keys, keys_mapVals]

/-- A `mapVals` that keeps `g` keeps the total. -/
theorem sumOf_mapVals {f : κ → ν → ν} {g : ν → ℕ} (h : ∀ k v, g (f k v) = g v)
    (m : AssocMap κ ν) : sumOf g (mapVals f m) = sumOf g m := by
  simp only [sumOf, values, mapVals, List.map_map]
  congr 1
  exact List.map_congr_left fun e _ => h e.1 e.2

variable [DecidableEq κ]

/-- Changes the value at `k`, if there is one. -/
def modify (k : κ) (f : ν → ν) (m : AssocMap κ ν) : AssocMap κ ν :=
  mapVals (fun k' v => if k' = k then f v else v) m

/-- A map over the values, seen at a key. -/
theorem lookup_mapVals (f : κ → ν → ν) (m : AssocMap κ ν) (k : κ) :
    (mapVals f m).lookup k = (m.lookup k).map (f k) := List.dlookup_map₂ k

/-- Modifying changes the value under the key. -/
@[simp] theorem lookup_modify_self (k : κ) (f : ν → ν) (m : AssocMap κ ν) :
    (modify k f m).lookup k = (m.lookup k).map f := by
  rw [modify, lookup_mapVals]
  simp

/-- And no other. -/
@[simp] theorem lookup_modify_ne {k k' : κ} (h : k' ≠ k) (f : ν → ν) (m : AssocMap κ ν) :
    (modify k f m).lookup k' = m.lookup k' := by
  rw [modify, lookup_mapVals]
  simp [h]

@[simp] theorem mem_modify (k k' : κ) (f : ν → ν) (m : AssocMap κ ν) :
    k' ∈ modify k f m ↔ k' ∈ m := mem_mapVals _ m k'

/-- A value that is looked up is one of the values. -/
theorem mem_values_of_lookup {m : AssocMap κ ν} {k : κ} {v : ν} (h : m.lookup k = some v) :
    v ∈ m.values :=
  List.mem_map.mpr ⟨⟨k, v⟩, AList.mem_lookup_iff.mp h, rfl⟩

/-- The values are those that are looked up. -/
theorem mem_values {m : AssocMap κ ν} {v : ν} :
    v ∈ m.values ↔ ∃ k, m.lookup k = some v := by
  constructor
  · intro h
    obtain ⟨⟨k, v'⟩, he, rfl⟩ := List.mem_map.mp h
    exact ⟨k, AList.mem_lookup_iff.mpr he⟩
  · rintro ⟨k, h⟩
    exact mem_values_of_lookup h

/-- Two maps with the same lookups have the same entries up to their order. -/
theorem entries_perm_of_lookup {m m' : AssocMap κ ν} (h : ∀ k, m.lookup k = m'.lookup k) :
    m.entries.Perm m'.entries :=
  List.lookup_ext m.nodupKeys m'.nodupKeys fun k v => by
    rw [show List.dlookup k m.entries = List.dlookup k m'.entries from h k]

/-- The sum depends on what is looked up only. -/
theorem sumOf_congr {m m' : AssocMap κ ν} (h : ∀ k, m.lookup k = m'.lookup k) (g : ν → ℕ) :
    sumOf g m = sumOf g m' :=
  (((entries_perm_of_lookup h).map _).map _).sum_nat

/-- A new key adds its value to the sum. -/
theorem sumOf_insert_of_notMem {m : AssocMap κ ν} {k : κ} (h : k ∉ m) (v : ν) (g : ν → ℕ) :
    sumOf g (m.insert k v) = g v + sumOf g m := by
  simp only [sumOf, values, AList.entries_insert_of_notMem h, List.map_cons, List.sum_cons]

/-- The total splits into the value at `k` and the rest. -/
theorem sumOf_erase {m : AssocMap κ ν} {k : κ} {v : ν} (h : m.lookup k = some v) (g : ν → ℕ) :
    sumOf g m = g v + sumOf g (m.erase k) := by
  have hnot : k ∉ m.erase k := fun hk => (AList.mem_erase.mp hk).1 rfl
  rw [← sumOf_insert_of_notMem hnot v g]
  refine sumOf_congr (fun k' => ?_) g
  by_cases hk : k' = k
  · subst hk
    rw [AList.lookup_insert, h]
  · rw [AList.lookup_insert_ne hk, AList.lookup_erase_ne hk]

/-- Changing one value changes the total by the difference at that value. -/
theorem sumOf_modify {m : AssocMap κ ν} {k : κ} {v : ν} (h : m.lookup k = some v)
    (f : ν → ν) (g : ν → ℕ) : sumOf g (modify k f m) + g v = sumOf g m + g (f v) := by
  have hf : (modify k f m).lookup k = some (f v) := by rw [lookup_modify_self, h]; rfl
  have hrest : sumOf g ((modify k f m).erase k) = sumOf g (m.erase k) := by
    refine sumOf_congr (fun k' => ?_) g
    by_cases hk : k' = k
    · subst hk
      rw [AList.lookup_erase, AList.lookup_erase]
    · rw [AList.lookup_erase_ne hk, AList.lookup_erase_ne hk, lookup_modify_ne hk]
  rw [sumOf_erase hf g, sumOf_erase h g, hrest]
  omega

/-- A total is nothing where every value counts for nothing. -/
theorem sumOf_eq_zero {m : AssocMap κ ν} {g : ν → ℕ} (h : ∀ k v, m.lookup k = some v → g v = 0) :
    sumOf g m = 0 := by
  have hlist : ∀ l : List (Sigma fun _ : κ => ν), (∀ e ∈ l, g e.2 = 0) →
      ((l.map fun e => e.2).map g).sum = 0 := by
    intro l hl
    induction l with
    | nil => rfl
    | cons e l ih =>
      have hrest := ih fun e' he' => hl e' (List.mem_cons_of_mem _ he')
      rw [List.map_cons, List.map_cons, List.sum_cons, hl e List.mem_cons_self, hrest]
  exact hlist m.entries fun e he => h e.1 e.2 (AList.mem_lookup_iff.mpr he)

/-- Maps whose values count the same under every key have the same total; a key that is missing
counts for nothing. -/
theorem sumOf_congr_getD {m m' : AssocMap κ ν} {g g' : ν → ℕ}
    (h : ∀ k, ((m.lookup k).map g).getD 0 = ((m'.lookup k).map g').getD 0) :
    sumOf g m = sumOf g' m' := by
  induction hn : m.entries.length generalizing m m' with
  | zero =>
    have hnone : ∀ k, m.lookup k = none := by
      intro k
      rw [AList.lookup_eq_none, AList.mem_keys]
      show k ∉ m.entries.map Sigma.fst
      rw [List.length_eq_zero_iff.mp hn]
      exact List.not_mem_nil
    have hzero : sumOf g' m' = 0 := by
      apply sumOf_eq_zero
      intro k v hv
      have hk := h k
      rw [hnone, hv] at hk
      exact hk.symm
    rw [hzero]
    apply sumOf_eq_zero
    intro k v hv
    rw [hnone] at hv
    cases hv
  | succ n ih =>
    obtain ⟨e, he⟩ : ∃ e, e ∈ m.entries :=
      List.exists_mem_of_length_pos (by rw [hn]; exact Nat.succ_pos n)
    have hlookup : m.lookup e.1 = some e.2 := AList.mem_lookup_iff.mpr he
    -- without the key of one entry the two maps still agree
    have hrest : sumOf g (m.erase e.1) = sumOf g' (m'.erase e.1) := by
      apply ih
      · intro k
        by_cases hk : k = e.1
        · rw [hk, AList.lookup_erase, AList.lookup_erase]
          rfl
        · rw [AList.lookup_erase_ne hk, AList.lookup_erase_ne hk]
          exact h k
      · have hlen := List.length_eraseP_of_mem he (p := fun s => e.1 = s.1) (decide_eq_true rfl)
        show (m.entries.eraseP fun s => e.1 = s.1).length = n
        omega
    have hkey := h e.1
    rw [hlookup] at hkey
    rw [sumOf_erase hlookup, hrest]
    cases hother : m'.lookup e.1 with
    | none =>
      rw [hother] at hkey
      have hsame : sumOf g' (m'.erase e.1) = sumOf g' m' := by
        apply sumOf_congr
        intro k
        by_cases hk : k = e.1
        · rw [hk, AList.lookup_erase, hother]
        · exact AList.lookup_erase_ne hk
      have hzero : g e.2 = 0 := hkey
      omega
    | some v =>
      rw [hother] at hkey
      have hsame : g e.2 = g' v := hkey
      rw [sumOf_erase hother, hsame]

/-- What was inserted under a key goes with it. -/
theorem erase_insert (m : AssocMap κ ν) (k : κ) (v : ν) : (m.insert k v).erase k = m.erase k := by
  apply AList.ext
  show List.kerase k (⟨k, v⟩ :: List.kerase k m.entries) = List.kerase k m.entries
  rw [List.kerase_cons_eq (s := (⟨k, v⟩ : Sigma fun _ : κ => ν)) rfl]

/-- A new value adds to the total, whatever it replaces. -/
theorem sumOf_insert_le (m : AssocMap κ ν) (k : κ) (v : ν) (g : ν → ℕ) :
    sumOf g (m.insert k v) ≤ g v + sumOf g m := by
  cases hk : m.lookup k with
  | none =>
    rw [sumOf_insert_of_notMem (AList.lookup_eq_none.mp hk)]
  | some w =>
    rw [sumOf_erase (AList.lookup_insert m), erase_insert, sumOf_erase hk]
    omega

/-- What is left after some keys are erased one after the other. -/
theorem lookup_foldl_erase {β : Type*} (key : β → κ) (gone : β → Bool) (l : List β)
    (m : AssocMap κ ν) (k : κ) (v : ν) :
    (l.foldl (fun m b => if gone b then m.erase (key b) else m) m).lookup k = some v ↔
      m.lookup k = some v ∧ ∀ b ∈ l, key b = k → gone b = false := by
  induction l generalizing m with
  | nil => simp
  | cons b l ih =>
    rw [List.foldl_cons, ih, List.forall_mem_cons]
    by_cases hgone : gone b = true
    · rw [if_pos hgone]
      by_cases hkey : key b = k
      · rw [hkey, AList.lookup_erase]
        simp [hgone]
      · rw [AList.lookup_erase_ne fun h => hkey h.symm]
        simp [hkey]
    · rw [if_neg hgone]
      simp [hgone]

/-- A key has one entry at most. -/
theorem filter_entries (m : AssocMap κ ν) (k : κ) :
    m.entries.filter (fun e => e.1 = k) = (m.lookup k).toList.map fun v => ⟨k, v⟩ := by
  have hlist : ∀ l : List (Sigma fun _ : κ => ν), l.NodupKeys →
      l.filter (fun e => e.1 = k) = (l.dlookup k).toList.map fun v => ⟨k, v⟩ := by
    intro l hl
    induction l with
    | nil => rfl
    | cons e l ih =>
      obtain ⟨hnot, hl'⟩ := List.nodupKeys_cons.mp hl
      by_cases hk : e.1 = k
      · subst hk
        have hrest := ih hl'
        rw [List.dlookup_eq_none.mpr hnot] at hrest
        rw [List.filter_cons_of_pos (by simp), hrest]
        show [e] = (List.dlookup e.1 (⟨e.1, e.2⟩ :: l)).toList.map _
        rw [List.dlookup_cons_eq]
        rfl
      · rw [List.filter_cons_of_neg (by simpa using hk), ih hl',
          List.dlookup_cons_ne l e fun h => hk h.symm]
  exact hlist m.entries m.nodupKeys

end AssocMap
