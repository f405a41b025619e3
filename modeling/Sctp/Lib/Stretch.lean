import Mathlib.Data.List.SplitBy
import Mathlib.Tactic.Common

/-!
# Stretches of a list

`List.splitBy` cuts a list wherever two neighbours are not related. The first lemmas read
it as a recursion; the last ones are about neighbours whose labels go on by one.
-/

namespace Stretch

variable {α β : Type*} {r : α → α → Bool}

/-- The first element begins the first group. -/
theorem exists_splitBy_cons (r : α → α → Bool) (a : α) (l : List α) :
    ∃ g gs, (a :: l).splitBy r = (a :: g) :: gs := by
  have hflat := List.flatten_splitBy r (a :: l)
  rcases hs : (a :: l).splitBy r with _ | ⟨g, gs⟩
  · rw [List.splitBy_eq_nil] at hs
    cases hs
  · have hg : g ≠ [] := List.ne_nil_of_mem_splitBy (r := r) (l := a :: l) (by rw [hs]; simp)
    obtain ⟨x, g', rfl⟩ := List.exists_cons_of_ne_nil hg
    rw [hs, List.flatten_cons, List.cons_append] at hflat
    injection hflat with hx _
    exact ⟨g', gs, by rw [hx]⟩

/-- A cut where the first two are not related. -/
theorem splitBy_cons_of_not {a b : α} (h : r a b = false) (l : List α) :
    (a :: b :: l).splitBy r = [a] :: (b :: l).splitBy r := by
  have happend := List.splitBy_append (r := r) (l := [a]) (m := b :: l) (by simpa using h)
  rw [List.splitBy_of_isChain (List.cons_ne_nil a []) (List.isChain_singleton a)] at happend
  exact happend

/-- Otherwise the first one joins the stretch of the second one. -/
theorem splitBy_cons_of_rel {a b : α} (h : r a b = true) {l g : List α} {gs : List (List α)}
    (hs : (b :: l).splitBy r = (b :: g) :: gs) :
    (a :: b :: l).splitBy r = (a :: b :: g) :: gs := by
  obtain ⟨hflat, hnil, hchain, hcut⟩ := List.splitBy_eq_iff.mp hs
  refine List.splitBy_eq_iff.mpr ⟨?_, ?_, ?_, ?_⟩
  · rw [hflat]
    rfl
  · rw [List.mem_cons, not_or] at hnil ⊢
    exact ⟨(List.cons_ne_nil a _).symm, hnil.2⟩
  · intro m hm
    rcases List.mem_cons.mp hm with rfl | hm
    · have hg := hchain (b :: g) List.mem_cons_self
      exact List.isChain_cons_cons.mpr ⟨h, hg⟩
    · exact hchain m (List.mem_cons_of_mem _ hm)
  · rw [List.isChain_cons] at hcut ⊢
    refine ⟨?_, hcut.2⟩
    intro m hm
    obtain ⟨_, hne, hlast⟩ := hcut.1 m hm
    refine ⟨List.cons_ne_nil a _, hne, ?_⟩
    rw [List.getLast_cons (List.cons_ne_nil b g)]
    exact hlast

/-- Two stretches in a row: the cut between them, and what holds of any two elements in order. -/
theorem isChain_splitBy {R : α → α → Prop} {l : List α} (h : l.Pairwise R) :
    (l.splitBy r).IsChain fun g g' => ∃ hg hg', r (g.getLast hg) (g'.head hg') = false ∧
      R (g.getLast hg) (g'.head hg') := by
  have hcut := List.isChain_getLast_head_splitBy r l
  rw [← List.flatten_splitBy r l, List.pairwise_flatten] at h
  have hapart := h.2
  generalize l.splitBy r = pieces at hcut hapart ⊢
  induction pieces with
  | nil => exact List.isChain_nil
  | cons g gs ih =>
    rw [List.isChain_cons] at hcut ⊢
    rw [List.pairwise_cons] at hapart
    refine ⟨?_, ih hcut.2 hapart.2⟩
    intro g' hg'
    obtain ⟨hne, hne', hnot⟩ := hcut.1 g' hg'
    have hrel := hapart.1 g' (List.mem_of_mem_head? hg') _ (List.getLast_mem hne) _
      (List.head_mem hne')
    exact ⟨hne, hne', hnot, hrel⟩

/-- What is taken of a list made up piece by piece, when each piece is taken whole or fails
with its first element. -/
theorem takeWhile_flatMap {p : β → Bool} {q : α → Bool} {f : α → List β} {l : List α}
    (hwhole : ∀ x ∈ l, q x = true → ∀ y ∈ f x, p y = true)
    (hfails : ∀ x ∈ l, q x = false → ∃ y ys, f x = y :: ys ∧ p y = false) :
    (l.flatMap f).takeWhile p = (l.takeWhile q).flatMap f := by
  induction l with
  | nil => rfl
  | cons x l ih =>
    have ih := ih (fun x hx => hwhole x (List.mem_cons_of_mem _ hx))
      (fun x hx => hfails x (List.mem_cons_of_mem _ hx))
    rw [List.flatMap_cons]
    rcases hx : q x with _ | _
    · obtain ⟨y, ys, hf, hy⟩ := hfails x List.mem_cons_self hx
      rw [List.takeWhile_cons_of_neg (by simp [hx]), hf, List.cons_append,
        List.takeWhile_cons_of_neg (by simp [hy])]
      rfl
    · rw [List.takeWhile_cons_of_pos hx, List.flatMap_cons,
        List.takeWhile_append_of_pos (hwhole x List.mem_cons_self hx), ih]

/-- Labels that go on by one modulo `m` leave out nothing between the first and the last. -/
theorem exists_label {ρ : α → ℕ} {m : ℕ} {x : α} {l : List α}
    (hchain : (x :: l).IsChain fun a b => (ρ a + 1) % m = ρ b) {o : ℕ} (hfirst : ρ x ≤ o)
    (hlast : o ≤ ρ ((x :: l).getLast (List.cons_ne_nil x l)))
    (hm : ∀ a ∈ x :: l, ρ a < m) : ∃ a ∈ x :: l, ρ a = o := by
  induction l generalizing x with
  | nil =>
    rw [List.getLast_singleton] at hlast
    exact ⟨x, List.mem_cons_self, by omega⟩
  | cons y l ih =>
    by_cases hx : ρ x = o
    · exact ⟨x, List.mem_cons_self, hx⟩
    · rw [List.isChain_cons_cons] at hchain
      rw [List.getLast_cons (List.cons_ne_nil y l)] at hlast
      -- `o` lies below the modulus, so the next label has not wrapped
      have hlt := hm _ (List.mem_cons_of_mem x (List.getLast_mem (List.cons_ne_nil y l)))
      have hy : ρ y = ρ x + 1 := by
        rw [← hchain.1, Nat.mod_eq_of_lt (by omega)]
      obtain ⟨a, ha, hρ⟩ := ih hchain.2 (by omega) hlast
        (fun a ha => hm a (List.mem_cons_of_mem x ha))
      exact ⟨a, List.mem_cons_of_mem x ha, hρ⟩

end Stretch
