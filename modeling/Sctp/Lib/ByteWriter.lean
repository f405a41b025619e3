import Mathlib.Data.List.Basic
import Sctp.Lib.Outcome

/-!
# A byte writer

What a reader makes of the bytes that a writer put into a buffer. The writer appends, so a
buffer is written as what was there, what was put, and what comes after.
-/

namespace Bytes

variable {ε : Type}

/-- `put_u16`, big endian. -/
def putU16 (v : BitVec 16) : Bytes := [v.extractLsb' 8 8, v.extractLsb' 0 8]

/-- `put_u32`, big endian. -/
def putU32 (v : BitVec 32) : Bytes :=
  [v.extractLsb' 24 8, v.extractLsb' 16 8, v.extractLsb' 8 8, v.extractLsb' 0 8]

/-- `put_u32_le`, little endian. -/
def putU32LE (v : BitVec 32) : Bytes := (putU32 v).reverse

/-- `vec![0u8; n]`. -/
def zeros (n : ℕ) : Bytes := List.replicate n 0

@[simp] theorem length_putU16 (v : BitVec 16) : (putU16 v).length = 2 := rfl

@[simp] theorem length_putU32 (v : BitVec 32) : (putU32 v).length = 4 := rfl

@[simp] theorem length_putU32LE (v : BitVec 32) : (putU32LE v).length = 4 := rfl

@[simp] theorem length_zeros (n : ℕ) : (zeros n).length = n := List.length_replicate ..

/-- Nothing else is written there. -/
theorem eq_zero_of_mem_zeros {n : ℕ} {b : Byte} (h : b ∈ zeros n) : b = 0 :=
  List.eq_of_mem_replicate h

/-- A word is its four bytes, the high ones first. -/
theorem bytes_of_word (v : BitVec 32) :
    v.extractLsb' 24 8 ++ v.extractLsb' 16 8 ++ v.extractLsb' 8 8 ++ v.extractLsb' 0 8 = v := by
  ext i hi
  simp only [BitVec.getElem_append, BitVec.getElem_extractLsb']
  split_ifs <;> grind

/-- What is written as a big-endian half-word is read as it. -/
@[simp] theorem getU16_putU16 (v : BitVec 16) (rest : Bytes) :
    (getU16 (putU16 v ++ rest) : Outcome ε _) = .ok (v, rest) := by
  have hv : v.extractLsb' 8 8 ++ v.extractLsb' 0 8 = v := by
    ext i hi
    simp only [BitVec.getElem_append, BitVec.getElem_extractLsb']
    split_ifs <;> grind
  show Outcome.ok (v.extractLsb' 8 8 ++ v.extractLsb' 0 8, rest) = _
  rw [hv]

/-- The same for a big-endian word. -/
@[simp] theorem getU32_putU32 (v : BitVec 32) (rest : Bytes) :
    (getU32 (putU32 v ++ rest) : Outcome ε _) = .ok (v, rest) := by
  show Outcome.ok (v.extractLsb' 24 8 ++ v.extractLsb' 16 8 ++ v.extractLsb' 8 8 ++
    v.extractLsb' 0 8, rest) = _
  rw [bytes_of_word]

/-- And for a little-endian one. -/
@[simp] theorem getU32LE_putU32LE (v : BitVec 32) (rest : Bytes) :
    (getU32LE (putU32LE v ++ rest) : Outcome ε _) = .ok (v, rest) := by
  show Outcome.ok (v.extractLsb' 24 8 ++ v.extractLsb' 16 8 ++ v.extractLsb' 8 8 ++
    v.extractLsb' 0 8, rest) = _
  rw [bytes_of_word]

/-- A slice of a buffer is what was put between the two offsets. -/
theorem slice_append {pre mid post : Bytes} {start stop : ℕ} (hstart : start = pre.length)
    (hstop : stop = start + mid.length) :
    (slice (pre ++ (mid ++ post)) start stop : Outcome ε Bytes) = .ok mid := by
  subst hstart hstop
  unfold slice
  rw [if_pos]
  · rw [← List.append_assoc, List.take_left' (by simp), List.drop_left]
  · simp

end Bytes
