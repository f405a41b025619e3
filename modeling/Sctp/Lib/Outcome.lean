import Mathlib.Data.Nat.Notation
import Mathlib.Tactic.Common

/-!
# Results of functions that may panic, and a panicking byte reader

A fallible function either returns a value, returns an error, or panics. The three are
kept apart, so that "returns `Ok` or `Err`" can be said and proved. The reader operations
at the end are those of a byte buffer that panics when it is asked for bytes it does not
have.
-/

/-- What a call comes to. -/
inductive Outcome (ε α : Type) where
  | ok (a : α)
  | err (e : ε)
  | panic
deriving DecidableEq, Repr

namespace Outcome

variable {ε α β γ : Type}

/-- Sequencing with `?`: an error or a panic ends the computation. -/
def bind (x : Outcome ε α) (f : α → Outcome ε β) : Outcome ε β :=
  match x with
  | ok a => f a
  | err e => err e
  | panic => panic

instance : Monad (Outcome ε) where
  pure := ok
  bind := bind

/-- The call comes back, with a value or with an error. -/
def Returns (x : Outcome ε α) : Prop := x ≠ panic

instance (x : Outcome ε α) : Decidable x.Returns :=
  match x with
  | ok _ => isTrue (by simp [Returns])
  | err _ => isTrue (by simp [Returns])
  | panic => isFalse (by simp [Returns])

@[simp] theorem pure_eq (a : α) : (pure a : Outcome ε α) = ok a := rfl

@[simp] theorem ok_bind (a : α) (f : α → Outcome ε β) : (ok a >>= f) = f a := rfl

@[simp] theorem err_bind (e : ε) (f : α → Outcome ε β) : (err e >>= f) = err e := rfl

@[simp] theorem panic_bind (f : α → Outcome ε β) : (panic >>= f) = panic := rfl

/-- Going on after a result. -/
@[simp] theorem returns_ok (a : α) : (ok a : Outcome ε α).Returns := by simp [Returns]

/-- An error is passed on. -/
@[simp] theorem returns_err (e : ε) : (err e : Outcome ε α).Returns := by simp [Returns]

/-- So is a panic. -/
@[simp] theorem not_returns_panic : ¬ (panic : Outcome ε α).Returns := by simp [Returns]

/-- A sequence gives a result if both of its parts do. -/
theorem bind_eq_ok {x : Outcome ε α} {f : α → Outcome ε β} {b : β} :
    (x >>= f) = ok b ↔ ∃ a, x = ok a ∧ f a = ok b := by
  cases x <;> simp

/-- A sequence comes back when its head does and the rest does on the head's value. -/
theorem returns_bind {x : Outcome ε α} {f : α → Outcome ε β} :
    (x >>= f).Returns ↔ x.Returns ∧ ∀ a, x = ok a → (f a).Returns := by
  cases x <;> simp

end Outcome

/-! ## Byte buffers -/

/-- A byte. -/
abbrev Byte := BitVec 8

/-- A byte string. -/
abbrev Bytes := List Byte

namespace Bytes

variable {ε : Type}

/-- `buf.slice(start..stop)`. -/
def slice (buf : Bytes) (start stop : ℕ) : Outcome ε Bytes :=
  if start ≤ stop ∧ stop ≤ buf.length then .ok ((buf.take stop).drop start) else .panic

/-- `buf[i]`. -/
def index (buf : Bytes) (i : ℕ) : Outcome ε Byte :=
  match buf[i]? with
  | some b => .ok b
  | none => .panic

/-- `get_u8`: the byte and what is left of the buffer. -/
def getU8 (buf : Bytes) : Outcome ε (BitVec 8 × Bytes) :=
  match buf with
  | b :: rest => .ok (b, rest)
  | [] => .panic

/-- `get_u16`, big endian. -/
def getU16 (buf : Bytes) : Outcome ε (BitVec 16 × Bytes) :=
  match buf with
  | b0 :: b1 :: rest => .ok (b0 ++ b1, rest)
  | _ => .panic

/-- `get_u32`, big endian. -/
def getU32 (buf : Bytes) : Outcome ε (BitVec 32 × Bytes) :=
  match buf with
  | b0 :: b1 :: b2 :: b3 :: rest => .ok (b0 ++ b1 ++ b2 ++ b3, rest)
  | _ => .panic

/-- `get_u32_le`, little endian. -/
def getU32LE (buf : Bytes) : Outcome ε (BitVec 32 × Bytes) :=
  match buf with
  | b0 :: b1 :: b2 :: b3 :: rest => .ok (b3 ++ b2 ++ b1 ++ b0, rest)
  | _ => .panic

/-- The big-endian number in the bytes `i` and `i + 1`; zero where there are none. -/
def u16At (buf : Bytes) (i : ℕ) : BitVec 16 :=
  match buf[i]?, buf[i + 1]? with
  | some b0, some b1 => b0 ++ b1
  | _, _ => 0

/-! Each operation comes back exactly when the bytes are there. -/

/-- A slice panics unless its bounds are in order and in the buffer. -/
@[simp] theorem slice_returns_iff {buf : Bytes} {start stop : ℕ} :
    (slice buf start stop : Outcome ε Bytes).Returns ↔ start ≤ stop ∧ stop ≤ buf.length := by
  unfold slice
  split <;> simp_all

/-- An index panics outside the buffer. -/
@[simp] theorem index_returns_iff {buf : Bytes} {i : ℕ} :
    (index buf i : Outcome ε Byte).Returns ↔ i < buf.length := by
  unfold index
  by_cases h : i < buf.length
  · simp [h]
  · simp [h]

/-- Reading a byte panics at the end of the buffer. -/
@[simp] theorem getU8_returns_iff {buf : Bytes} :
    (getU8 buf : Outcome ε _).Returns ↔ 1 ≤ buf.length := by
  unfold getU8
  split <;> simp

/-- Reading a word panics with fewer than four bytes left. -/
@[simp] theorem getU32_returns_iff {buf : Bytes} :
    (getU32 buf : Outcome ε _).Returns ↔ 4 ≤ buf.length := by
  match buf with
  | [] | [_] | [_, _] | [_, _, _] => simp [getU32]
  | _ :: _ :: _ :: _ :: rest => simp [getU32]

/-! What an operation leaves, and what a computation that goes on from there needs. -/

/-- What a slice is. -/
theorem slice_eq_ok {buf out : Bytes} {start stop : ℕ}
    (h : (slice buf start stop : Outcome ε Bytes) = .ok out) :
    out = (buf.take stop).drop start ∧ out.length = stop - start := by
  unfold slice at h
  split at h
  · rename_i hc
    cases h
    refine ⟨rfl, ?_⟩
    simp only [List.length_drop, List.length_take]
    omega
  · cases h

/-- What a byte reads. -/
theorem getU8_eq_ok {buf rest : Bytes} {v : BitVec 8}
    (h : (getU8 buf : Outcome ε _) = .ok (v, rest)) : buf = v :: rest := by
  unfold getU8 at h
  split at h
  · cases h
    rfl
  · cases h

/-- What a half-word reads. -/
theorem getU16_eq_ok {buf rest : Bytes} {v : BitVec 16}
    (h : (getU16 buf : Outcome ε _) = .ok (v, rest)) : v = u16At buf 0 ∧ rest = buf.drop 2 := by
  unfold getU16 at h
  split at h
  · cases h
    exact ⟨rfl, rfl⟩
  · cases h

/-- What a word leaves. -/
theorem getU32_eq_ok {buf rest : Bytes} {v : BitVec 32}
    (h : (getU32 buf : Outcome ε _) = .ok (v, rest)) : 4 ≤ buf.length ∧ rest = buf.drop 4 := by
  unfold getU32 at h
  split at h
  · cases h
    exact ⟨Nat.le_add_left _ _, rfl⟩
  · cases h

/-- Reading further on in a buffer. -/
theorem u16At_drop (buf : Bytes) (n i : ℕ) : u16At (buf.drop n) i = u16At buf (n + i) := by
  unfold u16At
  rw [List.getElem?_drop, List.getElem?_drop, Nat.add_assoc]

/-- Reading in an initial part of a buffer. -/
theorem u16At_take {buf : Bytes} {n i : ℕ} (h : i + 1 < n) :
    u16At (buf.take n) i = u16At buf i := by
  unfold u16At
  rw [List.getElem?_take_of_lt (by omega), List.getElem?_take_of_lt h]

/-- With two bytes left a half-word is read. -/
theorem exists_getU16 {buf : Bytes} (h : 2 ≤ buf.length) :
    ∃ v rest, (getU16 buf : Outcome ε _) = .ok (v, rest) ∧ rest.length + 2 = buf.length := by
  match buf, h with
  | b0 :: b1 :: rest, _ => exact ⟨b0 ++ b1, rest, rfl, rfl⟩

/-- With four bytes left a word is read. -/
theorem exists_getU32 {buf : Bytes} (h : 4 ≤ buf.length) :
    ∃ v rest, (getU32 buf : Outcome ε _) = .ok (v, rest) ∧ rest.length + 4 = buf.length := by
  match buf, h with
  | b0 :: b1 :: b2 :: b3 :: rest, _ => exact ⟨b0 ++ b1 ++ b2 ++ b3, rest, rfl, rfl⟩

/-- A read of two bytes that are there, and what follows it. -/
theorem getU16_bind_returns {α : Type} {buf : Bytes} (h : 2 ≤ buf.length)
    {f : BitVec 16 × Bytes → Outcome ε α}
    (hf : ∀ v rest, rest.length + 2 = buf.length → (f (v, rest)).Returns) :
    (getU16 buf >>= f).Returns := by
  obtain ⟨v, rest, hr, hl⟩ := @exists_getU16 ε buf h
  rw [hr, Outcome.ok_bind]
  exact hf v rest hl

/-- A read of four bytes that are there, and what follows it. -/
theorem getU32_bind_returns {α : Type} {buf : Bytes} (h : 4 ≤ buf.length)
    {f : BitVec 32 × Bytes → Outcome ε α}
    (hf : ∀ v rest, rest.length + 4 = buf.length → (f (v, rest)).Returns) :
    (getU32 buf >>= f).Returns := by
  obtain ⟨v, rest, hr, hl⟩ := @exists_getU32 ε buf h
  rw [hr, Outcome.ok_bind]
  exact hf v rest hl

end Bytes
