import Sctp.Lib.ReceiveWindow

/-!
# Receive windows that pass nothing by

If every step slides the point only over numbers that are held or taken in, then what lies behind
the point or is held is exactly what has been taken, as long as all of it lies in the half of the
number space behind the start.
-/

namespace ReceiveWindow

open Serial

variable {w : ℕ} {start : BitVec w} {v v' : Window w} {taken : List (BitVec w)} {k : ℕ}
  {t : BitVec w}

/-- The numbers the point passes are held or taken. -/
def PassesTaken (v v' : Window w) (taken : List (BitVec w)) : Prop :=
  ∀ t, 0 < dist v.point t → dist v.point t ≤ dist v.point v'.point → t ∈ v.held ∨ t ∈ taken

/-- The point does not leave the half behind the start if what is taken lies in it. -/
theorem Slides.near_start (hw : 0 < w) (h : Slides v v' taken k) (hpasses : PassesTaken v v' taken)
    (hstart : dist start v.point < half w) (hheld : ∀ t ∈ v.held, dist start t < half w)
    (htaken : ∀ t ∈ taken, dist start t < half w) : dist start v'.point < half w := by
  have hk := h.dist_point hw
  by_cases hzero : k = 0
  · have hpoint := h.dist_start_point hw hstart
    omega
  · rcases hpasses v'.point (by omega) (Nat.le_refl _) with hin | hin
    · exact hheld _ hin
    · exact htaken _ hin

/-- What has been seen after a step was seen before it or is taken. -/
theorem Slides.seen_iff (hw : 0 < w) (h : Slides v v' taken k) (hpasses : PassesTaken v v' taken)
    (hstart : dist start v.point < half w) :
    Seen start v' t ↔ Seen start v t ∨ t ∈ taken := by
  refine ⟨?_, h.seen hw hstart⟩
  rintro (hheld | hpassed)
  · rcases ((h.mem_held t).mp hheld).1 with hin | hin
    · exact Or.inl (Or.inl hin)
    · exact Or.inr hin
  · by_cases hbefore : dist start t ≤ dist start v.point
    · exact Or.inl (Or.inr hbefore)
    · -- the number lies between the two points
      have hdist : dist v.point t = dist start t - dist start v.point := dist_sub (by omega)
      have hpoint := h.dist_start_point hw hstart
      have hk := h.dist_point hw
      rcases hpasses t (by omega) (by omega) with hin | hin
      · exact Or.inl (Or.inl hin)
      · exact Or.inr hin

/-! ## Runs -/

/-- The window holds and has passed what has been taken, and that lies near the start. -/
structure Full (start : BitVec w) (taken : List (BitVec w)) (v : Window w) : Prop where
  near : dist start v.point < half w
  taken_near : ∀ t ∈ taken, dist start t < half w
  start_notMem : start ∉ taken
  seen_iff : ∀ t, Seen start v t ↔ t = start ∨ t ∈ taken

/-- At the start nothing was taken. -/
theorem Full.new (v : Window w) (hv : v.held = ∅) : Full v.point [] v where
  near := by
    rw [dist_self]
    exact half_pos
  taken_near t ht := absurd ht List.not_mem_nil
  start_notMem := List.not_mem_nil
  seen_iff t := by
    unfold Seen
    rw [hv, dist_self, Nat.le_zero, dist_eq_zero]
    constructor
    · rintro (hin | heq)
      · exact absurd hin (Set.notMem_empty t)
      · exact Or.inl heq
    · rintro (rfl | hin)
      · exact Or.inr rfl
      · exact absurd hin List.not_mem_nil

/-- **A slide that passes only numbers taken** leaves no number out. -/
theorem Full.step (hw : 0 < w) {before : List (BitVec w)} (h : Full start before v)
    (hslides : Slides v v' taken k) (hpasses : PassesTaken v v' taken)
    (htaken : ∀ t ∈ taken, dist start t < half w) : Full start (before ++ taken) v' where
  near := by
    refine hslides.near_start hw hpasses h.near (fun t ht => ?_) htaken
    rcases (h.seen_iff t).mp (Or.inl ht) with rfl | hin
    · rw [dist_self]
      exact half_pos
    · exact h.taken_near t hin
  taken_near t ht := by
    rcases List.mem_append.mp ht with hin | hin
    · exact h.taken_near t hin
    · exact htaken t hin
  start_notMem hin := by
    rcases List.mem_append.mp hin with hin | hin
    · exact h.start_notMem hin
    · exact hslides.not_seen hw h.near hin ((h.seen_iff start).mpr (Or.inl rfl))
  seen_iff t := by
    rw [hslides.seen_iff hw hpasses h.near, h.seen_iff, or_assoc, List.mem_append]

/-- What is taken next has not been taken. -/
theorem Full.not_mem (hw : 0 < w) {before : List (BitVec w)} (h : Full start before v)
    (hslides : Slides v v' taken k) (ht : t ∈ taken) : t ∉ before :=
  fun hin => hslides.not_seen hw h.near ht ((h.seen_iff t).mpr (Or.inr hin))

end ReceiveWindow
