import Mathlib.Data.List.Sort
import Mathlib.Data.List.Nodup
import Mathlib.Data.List.Chain

/-!
# Sorting by a comparison that is an order only on the list at hand

`Vec::sort_by` takes any comparison. It is asked here only whether one element is *less*
than another, and it is stable: `sortBy isLess` moves an element in front of another one
only when `isLess` says so. A comparison that is no order of the whole type (serial
numbers) may still be one on the elements of the list, which is said by a `rank`.
-/

namespace StableSort

variable {α : Type*} {isLess : α → α → Bool}

/-- `sort_by` with a comparison that answers `Less` where `isLess` holds and `Greater`
elsewhere. -/
def sortBy (isLess : α → α → Bool) (l : List α) : List α :=
  l.insertionSort fun a b => ¬ isLess b a = true

/-- Sorting permutes. -/
theorem sortBy_perm (isLess : α → α → Bool) (l : List α) : (sortBy isLess l).Perm l :=
  List.perm_insertionSort _ l

@[simp] theorem mem_sortBy {l : List α} {x : α} : x ∈ sortBy isLess l ↔ x ∈ l :=
  List.mem_insertionSort _

@[simp] theorem length_sortBy (l : List α) : (sortBy isLess l).length = l.length :=
  List.length_insertionSort _ l

/-- An insertion leaves no neighbours in the wrong order. -/
theorem isChain_orderedInsert (hasymm : ∀ a b, isLess a b = true → ¬ isLess b a = true) (x : α)
    {l : List α} (h : l.IsChain fun a b => ¬ isLess b a = true) :
    (l.orderedInsert (fun a b => ¬ isLess b a = true) x).IsChain fun a b => ¬ isLess b a = true := by
  induction l with
  | nil => exact List.isChain_singleton x
  | cons y l ih =>
    by_cases hxy : ¬ isLess y x = true
    · rw [List.orderedInsert_cons_of_le _ l hxy]
      exact List.isChain_cons_cons.mpr ⟨hxy, h⟩
    · rw [List.orderedInsert_of_not_le _ l hxy]
      have hyx : ¬ isLess x y = true := hasymm y x (not_not.mp hxy)
      obtain ⟨hhead, htail⟩ := List.isChain_cons.mp h
      refine List.isChain_cons.mpr ⟨?_, ih htail⟩
      intro z hz
      -- what follows `y` is `x` or what followed it before
      cases l with
      | nil =>
        rw [List.orderedInsert_nil, List.head?_cons, Option.mem_some_iff] at hz
        rw [← hz]
        exact hyx
      | cons w l =>
        by_cases hxw : ¬ isLess w x = true
        · rw [List.orderedInsert_cons_of_le _ l hxw, List.head?_cons, Option.mem_some_iff] at hz
          rw [← hz]
          exact hyx
        · rw [List.orderedInsert_of_not_le _ l hxw, List.head?_cons, Option.mem_some_iff] at hz
          rw [← hz]
          exact hhead w rfl

/-- Whatever the comparison, neighbours come out in order. -/
theorem isChain_sortBy (hasymm : ∀ a b, isLess a b = true → ¬ isLess b a = true) (l : List α) :
    (sortBy isLess l).IsChain fun a b => ¬ isLess b a = true := by
  induction l with
  | nil => exact List.isChain_nil
  | cons x l ih =>
    show ((sortBy isLess l).orderedInsert _ x).IsChain _
    exact isChain_orderedInsert hasymm x ih

/-- `rank` explains `isLess` on the elements of `l`. -/
def RanksOn (isLess : α → α → Bool) (rank : α → ℕ) (l : List α) : Prop :=
  ∀ a ∈ l, ∀ b ∈ l, isLess a b = true ↔ rank a < rank b

/-- The ranks come out in order. -/
theorem sortBy_pairwise_le {rank : α → ℕ} {l : List α} (h : RanksOn isLess rank l) :
    (sortBy isLess l).Pairwise fun a b => rank a ≤ rank b := by
  have hmap : (sortBy isLess l).map rank = (l.map rank).insertionSort (· ≤ ·) := by
    refine List.map_insertionSort _ _ rank l fun a ha b hb => ?_
    rw [h b hb a ha, Nat.not_lt]
  have hsort := List.pairwise_insertionSort (· ≤ ·) (l.map rank)
  rw [← hmap, List.pairwise_map] at hsort
  exact hsort

/-- With distinct ranks they come out strictly increasing. -/
theorem sortBy_pairwise_lt {rank : α → ℕ} {l : List α} (h : RanksOn isLess rank l)
    (hinj : (l.map rank).Nodup) :
    (sortBy isLess l).Pairwise fun a b => rank a < rank b := by
  have hnd : ((sortBy isLess l).map rank).Nodup :=
    ((sortBy_perm isLess l).map rank).nodup_iff.mpr hinj
  have hle := sortBy_pairwise_le h
  rw [List.Nodup, List.pairwise_map] at hnd
  exact (hle.and hnd).imp fun hab => Nat.lt_of_le_of_ne hab.1 hab.2

/-- Where the comparison is explained by distinct ranks, neighbours in order are enough. -/
theorem pairwise_lt_of_isChain {rank : α → ℕ} {l : List α} (h : RanksOn isLess rank l)
    (hinj : (l.map rank).Nodup) (hchain : l.IsChain fun a b => ¬ isLess b a = true) :
    l.Pairwise fun a b => rank a < rank b := by
  have hle : l.IsChain fun a b => rank a ≤ rank b := by
    refine hchain.imp_of_mem_imp fun a b ha hb hab => ?_
    rw [h b hb a ha, Nat.not_lt] at hab
    exact hab
  have hsort : (l.map rank).IsChain (· ≤ ·) := (List.isChain_map rank).mpr hle
  have hpair := List.isChain_iff_pairwise.mp hsort
  rw [List.pairwise_map] at hpair
  rw [List.Nodup, List.pairwise_map] at hinj
  exact (hpair.and hinj).imp fun hab => Nat.lt_of_le_of_ne hab.1 hab.2

/-- Two lists with the same elements and strictly increasing ranks are equal. -/
theorem eq_of_perm_of_rank_lt {rank : α → ℕ} {l₁ l₂ : List α} (hp : l₁.Perm l₂)
    (h₁ : l₁.Pairwise fun a b => rank a < rank b)
    (h₂ : l₂.Pairwise fun a b => rank a < rank b) : l₁ = l₂ := by
  refine hp.eq_of_pairwise (fun a b _ _ hab hba => ?_) h₁ h₂
  omega

/-- Sorting gives the arrangement of the list with strictly increasing ranks, where there
is one. -/
theorem sortBy_eq_of_rank {rank : α → ℕ} {l target : List α} (h : RanksOn isLess rank l)
    (hp : target.Perm l) (ht : target.Pairwise fun a b => rank a < rank b) :
    sortBy isLess l = target := by
  have hinj : (l.map rank).Nodup := by
    rw [← (hp.map rank).nodup_iff, List.Nodup, List.pairwise_map]
    exact ht.imp Nat.ne_of_lt
  exact eq_of_perm_of_rank_lt ((sortBy_perm isLess l).trans hp.symm)
    (sortBy_pairwise_lt h hinj) ht

end StableSort
