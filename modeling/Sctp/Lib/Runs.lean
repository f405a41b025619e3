import Mathlib.Data.List.ReduceOption
import Mathlib.Tactic.Common

/-!
# Runs of a deterministic system

A system is a step function over states and events. A run is a list of events; a side
condition on the steps is asked along the run, in the state in which each step is taken.
-/

namespace Runs

variable {σ ε : Type*} (step : σ → ε → σ)

/-- The state after the events. -/
def run (s : σ) (es : List ε) : σ := es.foldl step s

/-- `P` holds of every step of the run, in the state before it. -/
def Along (P : σ → ε → Prop) : σ → List ε → Prop
  | _, [] => True
  | s, e :: es => P s e ∧ Along P (step s e) es

/-- The side condition of a run can be checked step by step. -/
instance Along.decidable {P : σ → ε → Prop} [∀ s e, Decidable (P s e)] :
    ∀ s es, Decidable (Along step P s es)
  | _, [] => isTrue trivial
  | s, e :: es => @instDecidableAnd _ _ _ (Along.decidable (step s e) es)

/-- What the steps of a run put out, step by step. -/
def outputs {β : Type*} (out : σ → ε → β) : σ → List ε → List β
  | _, [] => []
  | s, e :: es => out s e :: outputs out (step s e) es

variable {step}

@[simp] theorem run_nil (s : σ) : run step s [] = s := rfl

@[simp] theorem run_cons (s : σ) (e : ε) (es : List ε) :
    run step s (e :: es) = run step (step s e) es := rfl

/-- A run in two parts. -/
theorem run_append (s : σ) (es es' : List ε) :
    run step s (es ++ es') = run step (run step s es) es' := List.foldl_append

/-- A condition along a run in two parts. -/
theorem along_append {P : σ → ε → Prop} (s : σ) (es es' : List ε) :
    Along step P s (es ++ es') ↔ Along step P s es ∧ Along step P (run step s es) es' := by
  induction es generalizing s with
  | nil => exact ⟨fun h => ⟨trivial, h⟩, fun h => h.2⟩
  | cons e es ih =>
    show P s e ∧ Along step P (step s e) (es ++ es') ↔ _
    rw [ih (step s e), ← and_assoc]
    rfl

/-- The outputs of a run in two parts. -/
theorem outputs_append {β : Type*} {out : σ → ε → β} (s : σ) (es es' : List ε) :
    outputs step out s (es ++ es') = outputs step out s es ++ outputs step out (run step s es) es' := by
  induction es generalizing s with
  | nil => rfl
  | cons e es ih =>
    show out s e :: outputs step out (step s e) (es ++ es') = _
    rw [ih]
    rfl

/-- What is at a place of the outputs that are there was put out by a step, with the ones in front
of it put out before. -/
theorem getElem?_reduceOption_outputs_iff {β : Type*} {out : σ → ε → Option β} {s : σ} {es : List ε}
    {j : ℕ} {b : β} :
    (outputs step out s es).reduceOption[j]? = some b ↔
      ∃ before e after, es = before ++ e :: after ∧
        (outputs step out s before).reduceOption.length = j ∧ out (run step s before) e = some b := by
  constructor
  · intro h
    induction es generalizing s j with
    | nil => cases h
    | cons e es ih =>
      change (out s e :: outputs step out (step s e) es).reduceOption[j]? = some b at h
      cases hout : out s e with
      | none =>
        rw [hout, List.reduceOption_cons_of_none] at h
        obtain ⟨before, e', after, rfl, hlen, hb⟩ := ih h
        refine ⟨e :: before, e', after, rfl, ?_, hb⟩
        show (out s e :: outputs step out (step s e) before).reduceOption.length = j
        rw [hout, List.reduceOption_cons_of_none]
        exact hlen
      | some b' =>
        rw [hout, List.reduceOption_cons_of_some] at h
        cases j with
        | zero =>
          refine ⟨[], e, es, rfl, rfl, ?_⟩
          rw [List.getElem?_cons_zero] at h
          exact hout.trans h
        | succ j =>
          rw [List.getElem?_cons_succ] at h
          obtain ⟨before, e', after, rfl, hlen, hb⟩ := ih h
          refine ⟨e :: before, e', after, rfl, ?_, hb⟩
          show (out s e :: outputs step out (step s e) before).reduceOption.length = j + 1
          rw [hout, List.reduceOption_cons_of_some, List.length_cons, hlen]
  · rintro ⟨before, e, after, rfl, rfl, hb⟩
    rw [outputs_append, List.reduceOption_append, List.getElem?_append_right (Nat.le_refl _),
      Nat.sub_self]
    show (out (run step s before) e :: _).reduceOption[0]? = some b
    rw [hb, List.reduceOption_cons_of_some]
    rfl

/-- The trivial condition holds along every run. -/
theorem along_true (s : σ) (es : List ε) : Along step (fun _ _ => True) s es := by
  induction es generalizing s with
  | nil => trivial
  | cons e es ih => exact ⟨trivial, ih _⟩

/-- A stronger condition on the steps. -/
theorem along_mono {P Q : σ → ε → Prop} (h : ∀ s e, P s e → Q s e) {s : σ} {es : List ε}
    (hes : Along step P s es) : Along step Q s es := by
  induction es generalizing s with
  | nil => trivial
  | cons e es ih => exact ⟨h s e hes.1, ih hes.2⟩

/-- Two conditions along a run are one. -/
theorem along_and {P Q : σ → ε → Prop} {s : σ} {es : List ε} (hP : Along step P s es)
    (hQ : Along step Q s es) : Along step (fun s e => P s e ∧ Q s e) s es := by
  induction es generalizing s with
  | nil => trivial
  | cons e es ih => exact ⟨⟨hP.1, hQ.1⟩, ih hP.2 hQ.2⟩

/-- Steps that put out the same along a run. -/
theorem outputs_congr {β : Type*} {out out' : σ → ε → β} {P : σ → ε → Prop}
    (h : ∀ s e, P s e → out s e = out' s e) {s : σ} {es : List ε} (hes : Along step P s es) :
    outputs step out s es = outputs step out' s es := by
  induction es generalizing s with
  | nil => rfl
  | cons e es ih =>
    show out s e :: outputs step out (step s e) es = _
    rw [h s e hes.1, ih hes.2]
    rfl

/-- What every step keeps, every run keeps. -/
theorem run_invariant {I : σ → Prop} (hstep : ∀ s e, I s → I (step s e)) {s : σ}
    (h : I s) (es : List ε) : I (run step s es) := by
  induction es generalizing s with
  | nil => exact h
  | cons e es ih => exact ih (hstep s e h)

/-- What no step changes, no run changes. -/
theorem run_frame {β : Type*} {f : σ → β} (hstep : ∀ s e, f (step s e) = f s) (s : σ)
    (es : List ε) : f (run step s es) = f s :=
  run_invariant (I := fun s' => f s' = f s) (fun s' e h => (hstep s' e).trans h) rfl es

/-- What every step that meets the condition keeps, every run whose steps meet it keeps. -/
theorem run_invariant_along {P : σ → ε → Prop} {I : σ → Prop}
    (hstep : ∀ s e, P s e → I s → I (step s e)) {s : σ} (h : I s) {es : List ε}
    (hes : Along step P s es) : I (run step s es) := by
  induction es generalizing s with
  | nil => exact h
  | cons e es ih => exact ih (hstep s e hes.1 h) hes.2

/-- What every step keeps between the state and all that has been put out. -/
theorem run_invariant_outputs {β : Type*} {out : σ → ε → List β} {I : σ → List β → Prop}
    (hstep : ∀ s e l, I s l → I (step s e) (l ++ out s e)) {s : σ} {l : List β} (h : I s l)
    (es : List ε) : I (run step s es) (l ++ (outputs step out s es).flatten) := by
  induction es generalizing s l with
  | nil =>
    show I s (l ++ [])
    rw [List.append_nil]
    exact h
  | cons e es ih =>
    have htail := ih (hstep s e l h)
    rw [List.append_assoc] at htail
    exact htail

/-- What holds of every step from an invariant state holds all along the run. -/
theorem along_of_invariant {P Q : σ → ε → Prop} {I : σ → Prop}
    (hstep : ∀ s e, P s e → I s → I (step s e)) (hQ : ∀ s e, P s e → I s → Q s e) {s : σ}
    (h : I s) {es : List ε} (hes : Along step P s es) : Along step Q s es := by
  induction es generalizing s with
  | nil => trivial
  | cons e es ih => exact ⟨hQ s e hes.1 h, ih (hstep s e hes.1 h) hes.2⟩

/-- Seen through a map that goes along with the steps, a run is a run. -/
theorem along_map {τ : Type*} {step' : τ → ε → τ} {g : τ → σ}
    (hg : ∀ t e, g (step' t e) = step (g t) e) {P : σ → ε → Prop} {t : τ} {es : List ε} :
    Along step' (fun t e => P (g t) e) t es ↔ Along step P (g t) es := by
  induction es generalizing t with
  | nil => exact Iff.rfl
  | cons e es ih =>
    show P (g t) e ∧ _ ↔ P (g t) e ∧ _
    rw [ih, hg]

/-- A condition on the events alone holds along every run of such events. -/
theorem along_of_forall {P : ε → Prop} (s : σ) {es : List ε} (h : ∀ e ∈ es, P e) :
    Along step (fun _ e => P e) s es := by
  induction es generalizing s with
  | nil => trivial
  | cons e es ih =>
    have hhead : P e := h e List.mem_cons_self
    have htail : ∀ e' ∈ es, P e' := fun e' he' => h e' (List.mem_cons_of_mem _ he')
    exact ⟨hhead, ih (step s e) htail⟩

/-- Conditions that agree on every step from an invariant state agree along the run, if a step
that meets them keeps the invariant. -/
theorem along_iff_of_invariant {P Q R : σ → ε → Prop} {I : σ → Prop}
    (hstep : ∀ s e, R s e → P s e → I s → I (step s e))
    (hiff : ∀ s e, R s e → I s → (P s e ↔ Q s e)) {s : σ} (h : I s) {es : List ε}
    (hes : Along step R s es) : Along step P s es ↔ Along step Q s es := by
  induction es generalizing s with
  | nil => exact Iff.rfl
  | cons e es ih =>
    have hhead := hiff s e hes.1 h
    constructor
    · intro hP
      exact ⟨hhead.mp hP.1, (ih (hstep s e hes.1 hP.1 h) hes.2).mp hP.2⟩
    · intro hQ
      have hP := hhead.mpr hQ.1
      exact ⟨hP, (ih (hstep s e hes.1 hP h) hes.2).mpr hQ.2⟩

end Runs
