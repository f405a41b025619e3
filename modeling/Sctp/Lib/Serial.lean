import Mathlib.Data.List.Sort
import Mathlib.Tactic.Ring
import Mathlib.Tactic.Linarith

/-!
# Serial number arithmetic

Comparison of counters that wrap (RFC 1982), over bit vectors of any positive width.
The four comparisons are written with the two one-sided subtractions such code uses; the
lemmas read them back through one quantity, `dist base x`, the number of increments that
lead from `base` to `x`.

The comparisons order no set of more than half the number space. What holds of them holds
inside a *window*: the values at most `2 ^ (w - 1)` increments ahead of a common base.
-/

namespace Serial

variable {w : ℕ}

/-- The number of increments that lead from `base` to `x`. -/
def dist (base x : BitVec w) : ℕ := (x - base).toNat

/-- Half the number space: the distance at which two values stop being comparable. -/
def half (w : ℕ) : ℕ := 2 ^ (w - 1)

/-- `i1` lies strictly behind `i2`. -/
def lt (i1 i2 : BitVec w) : Bool :=
  (i1 < i2 && i2 - i1 < 1#w <<< (w - 1)) || (i1 > i2 && i1 - i2 > 1#w <<< (w - 1))

/-- `i1` lies behind `i2` or at it. -/
def lte (i1 i2 : BitVec w) : Bool := i1 == i2 || lt i1 i2

/-- `i1` lies strictly ahead of `i2`; two values half the space apart count as ahead of
each other. -/
def gt (i1 i2 : BitVec w) : Bool :=
  (i1 < i2 && i2 - i1 ≥ 1#w <<< (w - 1)) || (i1 > i2 && i1 - i2 ≤ 1#w <<< (w - 1))

/-- `i1` lies ahead of `i2` or at it. -/
def gte (i1 i2 : BitVec w) : Bool := i1 == i2 || gt i1 i2

/-! ## Distances -/

/-- Half of the space, twice. -/
theorem two_mul_half (hw : 0 < w) : 2 * half w = 2 ^ w := by
  unfold half
  rw [← pow_succ', Nat.sub_add_cancel hw]

theorem half_pos : 0 < half w := Nat.two_pow_pos _

theorem dist_lt (base x : BitVec w) : dist base x < 2 ^ w := (x - base).isLt

@[simp] theorem dist_self (x : BitVec w) : dist x x = 0 := by simp [dist]

/-- A number is at distance zero from itself alone. -/
theorem dist_eq_zero {base x : BitVec w} : dist base x = 0 ↔ x = base := by
  constructor
  · intro h
    have h0 : x - base = 0#w := BitVec.eq_of_toNat_eq (by simpa [dist] using h)
    calc x = x - base + base := (BitVec.sub_add_cancel x base).symm
      _ = base := by rw [h0, BitVec.zero_add]
  · rintro rfl
    exact dist_self x

/-- Walking `k` increments ahead of the base gives distance `k`. -/
theorem dist_add_ofNat (base : BitVec w) {k : ℕ} (hk : k < 2 ^ w) :
    dist base (base + BitVec.ofNat w k) = k := by
  have hsub : base + BitVec.ofNat w k - base = BitVec.ofNat w k := by
    rw [BitVec.add_comm, BitVec.add_sub_cancel]
  rw [dist, hsub, BitVec.toNat_ofNat, Nat.mod_eq_of_lt hk]

/-- A value is its base plus its distance. -/
theorem add_dist (base x : BitVec w) : base + BitVec.ofNat w (dist base x) = x := by
  rw [dist, BitVec.ofNat_toNat, BitVec.setWidth_eq, BitVec.add_comm, BitVec.sub_add_cancel]

/-- At one distance from the base there is one number. -/
theorem dist_inj {base x y : BitVec w} (h : dist base x = dist base y) : x = y := by
  rw [← add_dist base x, h, add_dist]

/-- Distances measured from two bases differ by the distance of the bases, modulo the
size of the space. -/
theorem dist_trans (a b c : BitVec w) : dist a c = (dist a b + dist b c) % 2 ^ w := by
  have h : c - a = (b - a) + (c - b) := by
    rw [BitVec.sub_eq_add_neg c a, BitVec.sub_eq_add_neg b a, BitVec.sub_eq_add_neg c b]
    calc c + -a = -a + (c + (b + -b)) := by
          rw [← BitVec.sub_eq_add_neg b b, BitVec.sub_self, BitVec.add_zero, BitVec.add_comm]
      _ = b + -a + (c + -b) := by ac_rfl
  rw [dist, h, BitVec.toNat_add]
  rfl

/-- As long as nothing wraps, distances add up along the way. -/
theorem dist_add {a b c : BitVec w} (h : dist a b + dist b c < 2 ^ w) :
    dist a c = dist a b + dist b c := by
  rw [dist_trans a b c, Nat.mod_eq_of_lt h]

/-- The distance back is the rest of the space. -/
theorem dist_comm_of_ne {a b : BitVec w} (h : a ≠ b) : dist b a = 2 ^ w - dist a b := by
  have h1 := dist_trans a b a
  have hab : 0 < dist a b := Nat.pos_of_ne_zero fun h0 => h (dist_eq_zero.mp h0).symm
  have hlt := dist_lt a b
  have hlt' := dist_lt b a
  rw [dist_self] at h1
  have hdvd : 2 ^ w ∣ dist a b + dist b a := Nat.dvd_of_mod_eq_zero h1.symm
  obtain ⟨k, hk⟩ := hdvd
  have hk1 : k = 1 := by
    have h2 : 0 < k := by
      rcases Nat.eq_zero_or_pos k with rfl | h2
      · omega
      · exact h2
    have h3 : k < 2 := by
      by_contra hc
      have : 2 ^ w * 2 ≤ 2 ^ w * k := Nat.mul_le_mul_left _ (by omega)
      omega
    omega
  subst hk1
  omega

/-- The distance to `b` is the one to `a` less what lies between, when `a` is the nearer. -/
theorem dist_sub {base a b : BitVec w} (h : dist base a ≤ dist base b) :
    dist a b = dist base b - dist base a := by
  have h1 := dist_trans base a b
  have hb := dist_lt base b
  have hab := dist_lt a b
  rcases Nat.lt_or_ge (dist base a + dist a b) (2 ^ w) with hlt | hge
  · rw [Nat.mod_eq_of_lt hlt] at h1
    omega
  · rw [Nat.mod_eq_sub_mod hge, Nat.mod_eq_of_lt (by have := dist_lt base a; omega)] at h1
    omega

/-! ## The comparisons through the distance -/

private theorem toNat_bound (hw : 0 < w) : (1#w <<< (w - 1)).toNat = half w := by
  rw [BitVec.toNat_shiftLeft, BitVec.toNat_ofNat, Nat.one_mod_two_pow_eq_one.mpr hw,
    Nat.shiftLeft_eq, one_mul, half]
  exact Nat.mod_eq_of_lt (Nat.pow_lt_pow_right (by norm_num) (by omega))

/-- In numeric order nothing wraps. -/
private theorem dist_of_lt {a b : BitVec w} (h : a < b) : dist a b = b.toNat - a.toNat :=
  BitVec.toNat_sub_of_le (BitVec.le_of_lt h)

/-- `lt` asks that a positive distance stay below half the space. -/
theorem lt_iff (hw : 0 < w) (i1 i2 : BitVec w) :
    lt i1 i2 = true ↔ 0 < dist i1 i2 ∧ dist i1 i2 < half w := by
  have hb := toNat_bound hw
  have h2 := two_mul_half hw
  simp only [lt, gt_iff_lt, Bool.or_eq_true, Bool.and_eq_true, decide_eq_true_eq]
  rw [BitVec.lt_def (x := i2 - i1), BitVec.lt_def (x := 1#w <<< (w - 1)), hb]
  rcases BitVec.lt_trichotomy i1 i2 with h | h | h
  · have hn : ¬ i2 < i1 := BitVec.not_lt.mpr (BitVec.le_of_lt h)
    have hd : 0 < dist i1 i2 := by
      rw [dist_of_lt h]
      exact Nat.sub_pos_of_lt h
    simp only [h, hn, false_and, true_and, or_false]
    change dist i1 i2 < half w ↔ _
    omega
  · subst h
    simp [dist, half_pos]
  · have hn : ¬ i1 < i2 := BitVec.not_lt.mpr (BitVec.le_of_lt h)
    have hd : 0 < dist i2 i1 := by
      rw [dist_of_lt h]
      exact Nat.sub_pos_of_lt h
    have hne : i2 ≠ i1 := fun h0 => by subst h0; simp at hd
    have hc := dist_comm_of_ne hne
    have hlt := dist_lt i2 i1
    simp only [h, hn, false_and, true_and, false_or]
    change half w < dist i2 i1 ↔ _
    omega

/-- `gt` holds when the way forward is at least half the space. -/
theorem gt_iff (hw : 0 < w) (i1 i2 : BitVec w) :
    gt i1 i2 = true ↔ half w ≤ dist i1 i2 := by
  have hb := toNat_bound hw
  have h2 := two_mul_half hw
  simp only [gt, ge_iff_le, gt_iff_lt, Bool.or_eq_true, Bool.and_eq_true, decide_eq_true_eq]
  rw [BitVec.le_def (y := i2 - i1), BitVec.le_def (x := i1 - i2), hb]
  rcases BitVec.lt_trichotomy i1 i2 with h | h | h
  · have hn : ¬ i2 < i1 := BitVec.not_lt.mpr (BitVec.le_of_lt h)
    simp only [h, hn, false_and, true_and, or_false]
    rfl
  · subst h
    have := half_pos (w := w)
    simp only [BitVec.lt_irrefl, false_and, or_self, dist_self, false_iff]
    omega
  · have hn : ¬ i1 < i2 := BitVec.not_lt.mpr (BitVec.le_of_lt h)
    have hd : 0 < dist i2 i1 := by
      rw [dist_of_lt h]
      exact Nat.sub_pos_of_lt h
    have hne : i2 ≠ i1 := fun h0 => by subst h0; simp at hd
    have hc := dist_comm_of_ne hne
    have hlt := dist_lt i2 i1
    simp only [h, hn, false_and, true_and, false_or]
    change dist i2 i1 ≤ half w ↔ _
    omega

/-- `lte` asks for a distance below half the space. -/
theorem lte_iff (hw : 0 < w) (i1 i2 : BitVec w) :
    lte i1 i2 = true ↔ dist i1 i2 < half w := by
  have hpos := half_pos (w := w)
  rw [lte, Bool.or_eq_true, beq_iff_eq, lt_iff hw]
  constructor
  · rintro (rfl | h)
    · simpa using hpos
    · exact h.2
  · intro h
    rcases Nat.eq_zero_or_pos (dist i1 i2) with h0 | h0
    · exact Or.inl (dist_eq_zero.mp h0).symm
    · exact Or.inr ⟨h0, h⟩

/-- Inside one half of the space the comparison is the order of the distances. -/
theorem lt_iff_dist_lt (hw : 0 < w) {base a b : BitVec w}
    (h : dist base b < dist base a + half w) (h' : dist base a < dist base b + half w) :
    lt a b = true ↔ dist base a < dist base b := by
  have h2 := two_mul_half hw
  rw [lt_iff hw]
  rcases Nat.lt_or_ge (dist base b) (dist base a) with hlt | hge
  · have hba := dist_sub (Nat.le_of_lt hlt)
    have hne : b ≠ a := fun h0 => by subst h0; omega
    have hc := dist_comm_of_ne hne
    omega
  · rw [dist_sub hge]
    omega

end Serial
