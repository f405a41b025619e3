import Mathlib.Data.List.Induction
import Sctp.Lib.AssocMap

/-!
# The greatest value of each key

A fold over key-value pairs that keeps one value for each key and replaces it by a later one that
the comparison puts above it. The comparison need not be an order; it is enough that on the values
of one key it agrees with some rank.
-/

namespace AssocMap

variable {κ β : Type*} [DecidableEq κ]

/-- One pair of the fold. -/
def keepGreatest (lt : β → β → Bool) (m : AssocMap κ β) (e : κ × β) : AssocMap κ β :=
  let above :=
    match m.lookup e.1 with
    | some v => lt v e.2
    | none => true
  if above then m.insert e.1 e.2 else m

/-- Other keys are not touched. -/
theorem lookup_keepGreatest_ne {lt : β → β → Bool} {m : AssocMap κ β} {e : κ × β} {k : κ} (h : k ≠ e.1) :
    (keepGreatest lt m e).lookup k = m.lookup k := by
  unfold keepGreatest
  dsimp only
  split_ifs
  · exact AList.lookup_insert_ne h
  · rfl

/-- The value kept is the new one, or the greater of the two. -/
theorem lookup_keepGreatest_self (lt : β → β → Bool) (m : AssocMap κ β) (e : κ × β) :
    (keepGreatest lt m e).lookup e.1 = some e.2 ∧ m.lookup e.1 = none ∨
      ∃ v, m.lookup e.1 = some v ∧
        (keepGreatest lt m e).lookup e.1 = some (if lt v e.2 then e.2 else v) := by
  unfold keepGreatest
  cases h : m.lookup e.1 with
  | none => exact Or.inl ⟨AList.lookup_insert m, rfl⟩
  | some v =>
    refine Or.inr ⟨v, rfl, ?_⟩
    dsimp only
    by_cases hlt : lt v e.2 = true
    · rw [if_pos hlt, if_pos hlt]
      exact AList.lookup_insert m
    · rw [if_neg hlt, if_neg hlt]
      exact h

/-- The fold over a list of pairs. -/
def greatest (lt : β → β → Bool) (l : List (κ × β)) : AssocMap κ β := l.foldl (keepGreatest lt) ∅

/-- Every key has a value. -/
theorem exists_lookup_greatest (lt : β → β → Bool) {l : List (κ × β)} {e : κ × β} (he : e ∈ l) :
    ∃ v, (greatest lt l).lookup e.1 = some v := by
  induction l using List.reverseRecOn with
  | nil => cases he
  | append_singleton l d ih =>
    unfold greatest at ih ⊢
    rw [List.foldl_append, List.foldl_cons, List.foldl_nil]
    by_cases hkey : e.1 = d.1
    · rw [hkey]
      rcases lookup_keepGreatest_self lt (l.foldl (keepGreatest lt) ∅) d with
        ⟨hnew, _⟩ | ⟨v, _, hkept⟩
      · exact ⟨d.2, hnew⟩
      · exact ⟨_, hkept⟩
    · rw [lookup_keepGreatest_ne hkey]
      refine ih ?_
      rcases List.mem_append.mp he with hin | hlast
      · exact hin
      · rw [List.mem_singleton.mp hlast] at hkey
        exact absurd rfl hkey

/-- **The greatest value.** Where the comparison agrees with a rank on the values of a key, what the
fold keeps for the key is one of its values, and none is above it. -/
theorem greatest_spec {lt : β → β → Bool} {l : List (κ × β)} {k : κ} {rank : β → ℕ}
    (hrank : ∀ e ∈ l, ∀ e' ∈ l, e.1 = k → e'.1 = k → (lt e.2 e'.2 = true ↔ rank e.2 < rank e'.2))
    {v : β} (hv : (greatest lt l).lookup k = some v) :
    (k, v) ∈ l ∧ ∀ e ∈ l, e.1 = k → rank e.2 ≤ rank v := by
  induction l using List.reverseRecOn generalizing v with
  | nil => cases hv
  | append_singleton l d ih =>
    have ih' := @ih fun e he e' he' => hrank e (List.mem_append_left [d] he) e'
      (List.mem_append_left [d] he')
    have hlast : d ∈ l ++ [d] := List.mem_append_right l (List.mem_singleton_self d)
    unfold greatest at hv ih'
    rw [List.foldl_append, List.foldl_cons, List.foldl_nil] at hv
    by_cases hkey : k = d.1
    · subst hkey
      have hsplit : ∀ w, (∀ e ∈ l, e.1 = d.1 → rank e.2 ≤ rank w) → rank d.2 ≤ rank w →
          ∀ e ∈ l ++ [d], e.1 = d.1 → rank e.2 ≤ rank w := by
        intro w hold hnew e he hek
        rcases List.mem_append.mp he with hin | hd
        · exact hold e hin hek
        · rw [List.mem_singleton.mp hd]
          exact hnew
      rcases lookup_keepGreatest_self lt (l.foldl (keepGreatest lt) ∅) d with
        ⟨hnew, hnone⟩ | ⟨w, hold, hkept⟩
      · rw [hnew] at hv
        cases hv
        refine ⟨hlast, hsplit d.2 ?_ (Nat.le_refl _)⟩
        intro e he hek
        obtain ⟨w, hw⟩ := exists_lookup_greatest lt he
        unfold greatest at hw
        rw [hek, hnone] at hw
        cases hw
      · obtain ⟨hin, hall⟩ := ih' hold
        have hcompare := hrank (d.1, w) (List.mem_append_left [d] hin) d hlast rfl rfl
        rw [hkept] at hv
        by_cases hlt : lt w d.2 = true
        · rw [if_pos hlt] at hv
          cases hv
          have hbelow := hcompare.mp hlt
          refine ⟨hlast, hsplit d.2 ?_ (Nat.le_refl _)⟩
          intro e he hek
          exact Nat.le_trans (hall e he hek) (Nat.le_of_lt hbelow)
        · rw [if_neg hlt] at hv
          cases hv
          refine ⟨List.mem_append_left [d] hin, hsplit v hall ?_⟩
          exact Nat.le_of_not_lt fun hbelow => hlt (hcompare.mpr hbelow)
    · rw [lookup_keepGreatest_ne hkey] at hv
      obtain ⟨hin, hall⟩ := ih' hv
      refine ⟨List.mem_append_left [d] hin, ?_⟩
      intro e he hek
      rcases List.mem_append.mp he with hin' | hd
      · exact hall e hin' hek
      · rw [List.mem_singleton.mp hd] at hek
        exact absurd hek.symm hkey

end AssocMap
