import Mathlib.Data.Set.Basic
import Mathlib.Order.Defs.Unbundled
import Sctp.Lib.Serial
import Sctp.Lib.SortBy

/-!
# Windows of serial numbers

A window is a list of consecutive values, in order. Inside a window of up to half the space the
comparison `lt` is a strict total order, the one of the window, and a sort by it gives the values
in the order in which the window lists them.
-/

namespace Serial

variable {w : ℕ}

/-- The `n` values from `base` on. -/
def window (base : BitVec w) (n : ℕ) : List (BitVec w) :=
  (List.range n).map fun k => base + BitVec.ofNat w k

/-- A window holds the numbers that are near its base. -/
theorem mem_window {base x : BitVec w} {n : ℕ} (hn : n ≤ 2 ^ w) :
    x ∈ window base n ↔ dist base x < n := by
  unfold window
  rw [List.mem_map]
  constructor
  · intro ⟨k, hk, hx⟩
    rw [List.mem_range] at hk
    rw [← hx, dist_add_ofNat base (by omega)]
    exact hk
  · intro hlt
    exact ⟨dist base x, List.mem_range.mpr hlt, add_dist base x⟩

/-- It lists them by distance. -/
theorem window_pairwise (base : BitVec w) {n : ℕ} (hn : n ≤ 2 ^ w) :
    (window base n).Pairwise fun a b => dist base a < dist base b := by
  unfold window
  rw [List.pairwise_map]
  refine List.pairwise_lt_range.imp_of_mem fun {a b} ha hb hlt => ?_
  rw [List.mem_range] at ha hb
  rw [dist_add_ofNat base (by omega), dist_add_ofNat base (by omega)]
  exact hlt

/-! ## The laws of the comparisons -/

/-- The distance is the difference modulo the size of the space. -/
theorem dist_eq_emod (a b : BitVec w) : (dist a b : ℤ) = ((b.toNat : ℤ) - a.toNat) % 2 ^ w := by
  have ha := a.isLt
  have hsub : dist a b = (2 ^ w - a.toNat + b.toNat) % 2 ^ w := BitVec.toNat_sub b a
  have hcast : ((2 ^ w - a.toNat + b.toNat : ℕ) : ℤ) = (b.toNat : ℤ) - a.toNat + 2 ^ w := by
    push_cast [Nat.le_of_lt ha]
    ring
  rw [hsub, Int.natCast_emod, hcast]
  push_cast
  exact Int.add_emod_right _ _

/-- A shift of both ends leaves the distance. -/
theorem dist_add_right (a b k : BitVec w) : dist (a + k) (b + k) = dist a b := by
  have hsub : b + k - (a + k) = b - a := by
    rw [BitVec.sub_eq_add_neg, BitVec.sub_eq_add_neg, BitVec.neg_add]
    calc b + k + (-a - k) = b + -a + (k + -k) := by
          rw [BitVec.sub_eq_add_neg]
          ac_rfl
      _ = b + -a := by rw [← BitVec.sub_eq_add_neg k k, BitVec.sub_self, BitVec.add_zero]
  rw [dist, hsub, dist]

/-- Moving both numbers on does not change how they compare. -/
theorem lt_add_right (hw : 0 < w) (a b k : BitVec w) : lt (a + k) (b + k) = lt a b := by
  rw [Bool.eq_iff_iff, lt_iff hw, lt_iff hw, dist_add_right]

/-- Nor with `gt`. -/
theorem gt_add_right (hw : 0 < w) (a b k : BitVec w) : gt (a + k) (b + k) = gt a b := by
  rw [Bool.eq_iff_iff, gt_iff hw, gt_iff hw, dist_add_right]

theorem beq_add_right (a b k : BitVec w) : (a + k == b + k) = (a == b) := by
  rw [Bool.eq_iff_iff, beq_iff_eq, beq_iff_eq, BitVec.add_left_inj]

/-- Exactly one of the three holds. -/
theorem lt_or_eq_or_gt_iff (hw : 0 < w) (a b : BitVec w) :
    (lt a b = true ∧ a ≠ b ∧ gt a b = false) ∨ (lt a b = false ∧ a = b ∧ gt a b = false) ∨
      (lt a b = false ∧ a ≠ b ∧ gt a b = true) := by
  have hlt := lt_iff hw a b
  have hgt := gt_iff hw a b
  have hhalf := half_pos (w := w)
  rw [← Bool.not_eq_true, ← Bool.not_eq_true, hlt, hgt]
  by_cases heq : a = b
  · have hzero : dist a b = 0 := by rw [heq, dist_self]
    refine Or.inr (Or.inl ⟨?_, heq, ?_⟩)
    · omega
    · omega
  · have hpos : 0 < dist a b := Nat.pos_of_ne_zero fun h0 => heq (dist_eq_zero.mp h0).symm
    rcases Nat.lt_or_ge (dist a b) (half w) with hnear | hfar
    · exact Or.inl ⟨⟨hpos, hnear⟩, heq, by omega⟩
    · exact Or.inr (Or.inr ⟨by omega, heq, hfar⟩)

/-! ## Up to half the space -/

section

variable {base a b : BitVec w} {n : ℕ}

/-- In a window of half the space at most, `lt` compares distances. -/
theorem lt_iff_of_mem_window (hw : 0 < w) (hn : n ≤ half w) (ha : a ∈ window base n)
    (hb : b ∈ window base n) : lt a b = true ↔ dist base a < dist base b := by
  have hspace := two_mul_half hw
  rw [mem_window (by omega)] at ha hb
  exact lt_iff_dist_lt hw (by omega) (by omega)

/-- On the values of a window the comparison is a strict total order. -/
theorem isStrictTotalOrder_of_window (hw : 0 < w) (hn : n ≤ half w) {S : Set (BitVec w)}
    (hS : ∀ t ∈ S, t ∈ window base n) :
    IsStrictTotalOrder S fun a b => lt (a : BitVec w) (b : BitVec w) = true := by
  have hiff : ∀ a b : S, lt (a : BitVec w) (b : BitVec w) = true ↔
      dist base (a : BitVec w) < dist base (b : BitVec w) := fun a b =>
    lt_iff_of_mem_window hw hn (hS a a.2) (hS b b.2)
  refine { trichotomous := ?_, irrefl := ?_, trans := ?_ }
  · intro a b hab hba
    rw [hiff] at hab hba
    exact Subtype.ext (dist_inj (Nat.le_antisymm (Nat.le_of_not_lt hba) (Nat.le_of_not_lt hab)))
  · intro a ha
    rw [hiff] at ha
    exact Nat.lt_irrefl _ ha
  · intro a b c hab hbc
    rw [hiff] at hab hbc ⊢
    exact Nat.lt_trans hab hbc

/-- **A sort by keys of a window** gives the keys in the order of the window. -/
theorem sortBy_window {α : Type*} (hw : 0 < w) (hn : n ≤ half w) {key : α → BitVec w} {l : List α}
    (hin : ∀ x ∈ l, key x ∈ window base n) (hnodup : (l.map key).Nodup) :
    (StableSort.sortBy (fun x y => lt (key x) (key y)) l).map key =
      (window base n).filter fun t => t ∈ l.map key := by
  have hspace := two_mul_half hw
  have hranks : StableSort.RanksOn (fun x y => lt (key x) (key y)) (fun x => dist base (key x)) l :=
    fun x hx y hy => lt_iff_of_mem_window hw hn (hin x hx) (hin y hy)
  have hinj : (l.map fun x => dist base (key x)).Nodup := by
    have hcomp : (l.map fun x => dist base (key x)) = (l.map key).map (dist base) := by
      rw [List.map_map]
      rfl
    rw [hcomp]
    exact hnodup.map_on fun _ _ _ _ h => dist_inj h
  have hsorted := StableSort.sortBy_pairwise_lt hranks hinj
  have hperm := (StableSort.sortBy_perm (fun x y => lt (key x) (key y)) l).map key
  have hwindow := window_pairwise base (n := n) (by omega)
  -- both lists have the same elements, in increasing distance from the base
  refine @StableSort.eq_of_perm_of_rank_lt _ (dist base) _ _ ?_ (List.pairwise_map.mpr hsorted)
    (hwindow.filter _)
  refine (List.perm_ext_iff_of_nodup (hperm.nodup_iff.mpr hnodup) ?_).mpr ?_
  · refine List.Nodup.filter _ (hwindow.imp fun hlt heq => ?_)
    rw [heq] at hlt
    exact Nat.lt_irrefl _ hlt
  · intro t
    rw [hperm.mem_iff, List.mem_filter, decide_eq_true_eq]
    refine ⟨fun ht => ⟨?_, ht⟩, fun ht => ht.2⟩
    obtain ⟨x, hx, rfl⟩ := List.mem_map.mp ht
    exact hin x hx

end

/-! ## A usable order -/

/-- The comparisons of serial numbers of `w` bits are usable as an order. -/
structure UsableOrder (lt lte gt gte eq : BitVec w → BitVec w → Bool) : Prop where
  exactlyOne : ∀ a b, (lt a b = true ∧ a ≠ b ∧ gt a b = false) ∨
    (lt a b = false ∧ a = b ∧ gt a b = false) ∨ (lt a b = false ∧ a ≠ b ∧ gt a b = true)
  lt_iff : ∀ a b, lt a b = true ↔ 1 ≤ ((b.toNat : ℤ) - a.toNat) % 2 ^ w ∧
    ((b.toNat : ℤ) - a.toNat) % 2 ^ w ≤ 2 ^ (w - 1) - 1
  shift : ∀ a b k, lt (a + k) (b + k) = lt a b ∧ lte (a + k) (b + k) = lte a b ∧
    gt (a + k) (b + k) = gt a b ∧ gte (a + k) (b + k) = gte a b ∧ eq (a + k) (b + k) = eq a b
  strictTotal : ∀ (base : BitVec w) (n : ℕ), n < 2 ^ (w - 1) + 1 → ∀ S : Set (BitVec w),
    (∀ t ∈ S, t ∈ window base n) →
      IsStrictTotalOrder S fun a b => lt (a : BitVec w) (b : BitVec w) = true

/-- **The comparisons are an order** within every such window. -/
theorem usableOrder (hw : 0 < w) : UsableOrder (w := w) lt lte gt gte (· == ·) where
  exactlyOne := lt_or_eq_or_gt_iff hw
  lt_iff a b := by
    have hpow : ((half w : ℕ) : ℤ) = 2 ^ (w - 1) := by
      unfold half
      push_cast
      rfl
    rw [lt_iff hw, ← dist_eq_emod]
    omega
  shift a b k := by
    refine ⟨lt_add_right hw a b k, ?_, gt_add_right hw a b k, ?_, beq_add_right a b k⟩
    · unfold lte
      rw [lt_add_right hw, beq_add_right]
    · unfold gte
      rw [gt_add_right hw, beq_add_right]
  strictTotal _ _ hn _ hS := isStrictTotalOrder_of_window hw (Nat.le_of_lt_succ hn) hS

end Serial
