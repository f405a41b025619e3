import Sctp.Lib.Runs
import Sctp.Lib.Serial

/-!
# Receive windows over serial numbers

A receiver that numbers what it has got by a *point*, up to which nothing is missing, and
the set of the numbers it *holds* beyond it. A step takes numbers in and slides the point
on, past numbers it drops. As long as the point goes less than half the number space in all,
no number is taken twice, however often it is offered: one that was taken is held until the
point has passed it, and one the point has passed lies behind it.
-/

namespace ReceiveWindow

open Serial

variable {w : ℕ}

/-- The point up to which every number was taken, and the numbers held beyond it. -/
structure Window (w : ℕ) where
  point : BitVec w
  held : Set (BitVec w)

/-- The step from `v` to `v'` takes the numbers of `taken` in and slides the point `k` on. -/
structure Slides (v v' : Window w) (taken : List (BitVec w)) (k : ℕ) : Prop where
  nodup : taken.Nodup
  fresh : ∀ t ∈ taken, t ∉ v.held ∧ 0 < dist v.point t
  near : ∀ t, t ∈ v.held ∨ t ∈ taken → dist v.point t ≤ half w
  le_half : k ≤ half w
  point_eq : v'.point = v.point + BitVec.ofNat w k
  mem_held : ∀ t, t ∈ v'.held ↔ (t ∈ v.held ∨ t ∈ taken) ∧ k < dist v.point t

/-- Half of the numbers are fewer than all. -/
theorem half_lt (hw : 0 < w) : half w < 2 ^ w := by
  have h2 := two_mul_half hw
  have hpos := half_pos (w := w)
  omega

/-- The point moves by the number of steps. -/
theorem Slides.dist_point (hw : 0 < w) {v v' : Window w} {taken : List (BitVec w)} {k : ℕ}
    (h : Slides v v' taken k) : dist v.point v'.point = k := by
  have hlt := half_lt hw
  have hle := h.le_half
  rw [h.point_eq]
  exact dist_add_ofNat _ (by omega)

/-- Nothing happens. -/
theorem Slides.refl (v : Window w) (hv : ∀ t ∈ v.held, 0 < dist v.point t ∧ dist v.point t ≤ half w) :
    Slides v v [] 0 where
  nodup := List.nodup_nil
  fresh t ht := absurd ht List.not_mem_nil
  near t ht := by
    rcases ht with ht | ht
    · exact (hv t ht).2
    · exact absurd ht List.not_mem_nil
  le_half := Nat.zero_le _
  point_eq := by simp
  mem_held t := by
    constructor
    · intro ht
      exact ⟨Or.inl ht, (hv t ht).1⟩
    · rintro ⟨ht | ht, _⟩
      · exact ht
      · exact absurd ht List.not_mem_nil

/-- Sliding comes `k` closer to what is held. -/
theorem Slides.dist_held (hw : 0 < w) {v v' : Window w} {taken : List (BitVec w)} {k : ℕ}
    (h : Slides v v' taken k) {t : BitVec w} (ht : k ≤ dist v.point t) :
    k + dist v'.point t = dist v.point t := by
  have hk := h.dist_point hw
  have hsub : dist v'.point t = dist v.point t - dist v.point v'.point :=
    dist_sub (by rw [hk]; exact ht)
  omega

/-- A step, and then the point slides further on. -/
theorem Slides.trans (hw : 0 < w) {v v₁ v₂ : Window w} {taken : List (BitVec w)} {k₁ k₂ : ℕ}
    (h₁ : Slides v v₁ taken k₁) (h₂ : Slides v₁ v₂ [] k₂) (hle : k₁ + k₂ ≤ half w) :
    Slides v v₂ taken (k₁ + k₂) where
  nodup := h₁.nodup
  fresh := h₁.fresh
  near := h₁.near
  le_half := hle
  point_eq := by rw [h₂.point_eq, h₁.point_eq, BitVec.ofNat_add, BitVec.add_assoc]
  mem_held t := by
    rw [h₂.mem_held, h₁.mem_held]
    simp only [List.not_mem_nil, or_false]
    rw [and_assoc]
    refine and_congr_right fun _ => ⟨fun hk => ?_, fun hk => ?_⟩
    · have hdist := h₁.dist_held hw (Nat.le_of_lt hk.1)
      omega
    · have hdist := h₁.dist_held hw (t := t) (by omega)
      omega

/-- `t` is held, or the point has passed it on its way from `start`. -/
def Seen (start : BitVec w) (v : Window w) (t : BitVec w) : Prop :=
  t ∈ v.held ∨ dist start t ≤ dist start v.point

variable {start : BitVec w} {v v' : Window w} {taken : List (BitVec w)} {k : ℕ}

/-- Near the point, distances from the start go over the point. -/
theorem dist_start (hw : 0 < w) {t : BitVec w} (hstart : dist start v.point < half w)
    (ht : dist v.point t ≤ half w) : dist start t = dist start v.point + dist v.point t := by
  have h2 := two_mul_half hw
  exact dist_add (by omega)

/-- While it is in the half after the start, the distances add up. -/
theorem Slides.dist_start_point (hw : 0 < w) (h : Slides v v' taken k)
    (hstart : dist start v.point < half w) :
    dist start v'.point = dist start v.point + k := by
  have hk := h.dist_point hw
  rw [dist_start hw hstart (by rw [hk]; exact h.le_half), hk]

/-- What was seen stays seen, and what is taken becomes so. -/
theorem Slides.seen (hw : 0 < w) (h : Slides v v' taken k) (hstart : dist start v.point < half w)
    {t : BitVec w} (ht : Seen start v t ∨ t ∈ taken) : Seen start v' t := by
  have hpoint := h.dist_start_point hw hstart
  by_cases hin : t ∈ v.held ∨ t ∈ taken
  · have hdist := dist_start hw hstart (h.near t hin)
    by_cases hk : k < dist v.point t
    · left
      rw [h.mem_held]
      exact ⟨hin, hk⟩
    · right
      omega
  · right
    rcases ht with (hheld | hpassed) | htaken
    · exact absurd (Or.inl hheld) hin
    · omega
    · exact absurd (Or.inr htaken) hin

/-- What is taken was not seen before. -/
theorem Slides.not_seen (hw : 0 < w) (h : Slides v v' taken k)
    (hstart : dist start v.point < half w) {t : BitVec w} (ht : t ∈ taken) : ¬ Seen start v t := by
  have hfresh := h.fresh t ht
  have hdist := dist_start hw hstart (h.near t (Or.inr ht))
  rintro (hheld | hpassed)
  · exact hfresh.1 hheld
  · omega

/-! ## Runs -/

section

variable {σ ε : Type*} {step : σ → ε → σ} {view : σ → Window w}
  {takes : σ → ε → List (BitVec w)} {slide : σ → ε → ℕ} {I : σ → Prop}

/-- Nothing taken along a run was seen at its beginning, and nothing is taken twice. -/
theorem nodup_outputs_of_slides (hw : 0 < w) (hI : ∀ s e, I s → I (step s e))
    (hstep : ∀ s e, I s → Slides (view s) (view (step s e)) (takes s e) (slide s e))
    {s : σ} (hs : I s) {es : List ε}
    (hstart : dist start (view s).point + (Runs.outputs step slide s es).sum < half w) :
    (∀ t ∈ (Runs.outputs step takes s es).flatten, ¬ Seen start (view s) t) ∧
      (Runs.outputs step takes s es).flatten.Nodup := by
  induction es generalizing s with
  | nil => exact ⟨fun t ht => absurd ht List.not_mem_nil, List.nodup_nil⟩
  | cons e es ih =>
    have hslides := hstep s e hs
    rw [Runs.outputs, List.sum_cons] at hstart
    have hstart' : dist start (view s).point < half w := by omega
    have hpoint := hslides.dist_start_point hw hstart'
    obtain ⟨hnew, hnodup⟩ := ih (hI s e hs) (by omega)
    rw [Runs.outputs, List.flatten_cons]
    constructor
    · intro t ht hseen
      rw [List.mem_append] at ht
      rcases ht with htaken | hlater
      · exact hslides.not_seen hw hstart' htaken hseen
      · exact hnew t hlater (hslides.seen hw hstart' (Or.inl hseen))
    · refine List.nodup_append.mpr ⟨hslides.nodup, hnodup, ?_⟩
      intro t htaken t' hlater heq
      subst heq
      exact hnew t hlater (hslides.seen hw hstart' (Or.inr htaken))

/-- No number is taken twice in a run that slides the point less than half the space. -/
theorem taken_at_most_once (hw : 0 < w) (hI : ∀ s e, I s → I (step s e))
    (hstep : ∀ s e, I s → Slides (view s) (view (step s e)) (takes s e) (slide s e))
    {s : σ} (hs : I s) {es : List ε} (hsum : (Runs.outputs step slide s es).sum < half w) :
    (Runs.outputs step takes s es).flatten.Nodup := by
  have hstart : dist (view s).point (view s).point +
      (Runs.outputs step slide s es).sum < half w := by
    rw [dist_self, Nat.zero_add]
    exact hsum
  exact (nodup_outputs_of_slides hw hI hstep hs hstart).2

end

end ReceiveWindow
