import Sctp.Lib.Runs

/-!
# Two parties and a network

Two parties run the same protocol over a network that keeps everything ever sent. A party
acts of its own accord or receives any of the messages the other one has sent so far, so the
network may lose, delay, repeat and reorder them.
-/

namespace TwoParty

variable {σ μ ω τ : Type*}

/-- The parties, and all messages that each has ever sent: a message that was sent can arrive at any
later time, any number of times, or never. -/
structure State (σ μ : Type*) where
  party : Bool → σ
  sent : Bool → List μ

namespace State

/-- Party `x` goes to `p` and sends `out`. -/
def update (s : State σ μ) (x : Bool) (p : σ) (out : List μ) : State σ μ :=
  { party := Function.update s.party x p
    sent := Function.update s.sent x (s.sent x ++ out) }

variable (s : State σ μ) (x : Bool) (p : σ) (out : List μ)

@[simp] theorem party_update : (s.update x p out).party x = p := Function.update_self ..

@[simp] theorem sent_update : (s.update x p out).sent x = s.sent x ++ out := Function.update_self ..

@[simp] theorem party_update_other : (s.update x p out).party (!x) = s.party (!x) :=
  Function.update_of_ne (by simp) ..

@[simp] theorem sent_update_other : (s.update x p out).sent (!x) = s.sent (!x) :=
  Function.update_of_ne (by simp) ..

end State

/-- What a party does of its own accord and on a message. -/
structure Protocol (σ μ ω τ : Type*) where
  act : σ → ω → σ × List μ
  receive : σ → τ → μ → σ

/-- `deliver x t i`: party `x` receives, at time `t`, the `i`-th message of the other one. -/
inductive Event (ω τ : Type*) where
  | act (x : Bool) (op : ω)
  | deliver (x : Bool) (t : τ) (i : ℕ)

/-- A relation between a party, its peer and what the two have sent holds of both. -/
def Both (I : Bool → σ → σ → List μ → List μ → Prop) (s : State σ μ) : Prop :=
  ∀ x, I x (s.party x) (s.party (!x)) (s.sent x) (s.sent (!x))

/-- When one party acts, what relates the two has to be shown for both. -/
theorem both_update {I : Bool → σ → σ → List μ → List μ → Prop} {s : State σ μ} {x : Bool} {p : σ}
    {out : List μ} (h : I x p (s.party (!x)) (s.sent x ++ out) (s.sent (!x)))
    (h' : I (!x) (s.party (!x)) p (s.sent (!x)) (s.sent x ++ out)) :
    Both I (s.update x p out) := by
  intro y
  by_cases hy : y = x
  · subst hy
    simpa using h
  · have hnot : y = !x := Bool.eq_not_of_ne hy
    subst hnot
    have hself := Bool.not_not x
    rw [hself]
    simpa using h'

namespace Protocol

variable (P : Protocol σ μ ω τ)

/-- A step of the system: one party acts, or a message of the other one arrives at it. -/
def step (s : State σ μ) : Event ω τ → State σ μ
  | .act x op => s.update x (P.act (s.party x) op).1 (P.act (s.party x) op).2
  | .deliver x t i =>
    match (s.sent (!x))[i]? with
    | some m => s.update x (P.receive (s.party x) t m) []
    | none => s

variable {P}

/-- A party acts, or receives what its peer has sent, or there is no such message. -/
theorem step_cases (s : State σ μ) (e : Event ω τ) :
    (∃ x op, e = .act x op ∧
      P.step s e = s.update x (P.act (s.party x) op).1 (P.act (s.party x) op).2) ∨
    (∃ x t i, e = .deliver x t i ∧
      ((∃ m ∈ s.sent (!x), P.step s e = s.update x (P.receive (s.party x) t m) []) ∨
        P.step s e = s)) := by
  cases e with
  | act x op => exact Or.inl ⟨x, op, rfl, rfl⟩
  | deliver x t i =>
    refine Or.inr ⟨x, t, i, rfl, ?_⟩
    unfold step
    dsimp only
    cases hm : (s.sent (!x))[i]? with
    | none => exact Or.inr rfl
    | some m => exact Or.inl ⟨m, List.mem_of_getElem? hm, rfl⟩

/-- A relation is kept if acting keeps it, and so does receiving what the peer has sent. -/
theorem both_step {I : Bool → σ → σ → List μ → List μ → Prop} {s : State σ μ}
    (h : Both I s) (e : Event ω τ)
    (hact : ∀ x op, e = .act x op →
      I x (P.act (s.party x) op).1 (s.party (!x)) (s.sent x ++ (P.act (s.party x) op).2)
        (s.sent (!x)) ∧
      I (!x) (s.party (!x)) (P.act (s.party x) op).1 (s.sent (!x))
        (s.sent x ++ (P.act (s.party x) op).2))
    (hdeliver : ∀ x t i m, e = .deliver x t i → (s.sent (!x))[i]? = some m →
      I x (P.receive (s.party x) t m) (s.party (!x)) (s.sent x) (s.sent (!x)) ∧
      I (!x) (s.party (!x)) (P.receive (s.party x) t m) (s.sent (!x)) (s.sent x)) :
    Both I (P.step s e) := by
  cases e with
  | act x op => exact both_update (hact x op rfl).1 (hact x op rfl).2
  | deliver x t i =>
    show Both I (match (s.sent (!x))[i]? with
      | some m => s.update x (P.receive (s.party x) t m) []
      | none => s)
    cases hm : (s.sent (!x))[i]? with
    | none => exact h
    | some m =>
      have hkept := hdeliver x t i m rfl hm
      apply both_update
      · rw [List.append_nil]
        exact hkept.1
      · rw [List.append_nil]
        exact hkept.2

end Protocol

end TwoParty
