import Sctp.Lib.Outcome
import Sctp.Lib.Serial

/-!
# `util.rs`: padding and serial number comparisons
-/

namespace Sctp

/-- The fixed-width unsigned integers of the source. -/
abbrev U8 := BitVec 8
abbrev U16 := BitVec 16
abbrev U32 := BitVec 32

/-- Chunks and parameters are padded to this multiple. -/
def paddingMultiple : ℕ := 4

/-- How many bytes of padding follow `len` bytes. -/
def getPaddingSize (len : ℕ) : ℕ :=
  (paddingMultiple - len % paddingMultiple) % paddingMultiple

/-- The bytes the checksum is computed over: the packet with the checksum field zeroed. -/
def generatePacketChecksum (crc : Bytes → U32) (raw : Bytes) : U32 :=
  crc (raw.take 8 ++ [0, 0, 0, 0] ++ raw.drop 12)

/-- Serial number arithmetic on TSNs: the comparisons of `util.rs` on `u32`. -/
def sna32lt (i1 i2 : U32) : Bool := Serial.lt i1 i2

/-- A TSN at or before another. -/
def sna32lte (i1 i2 : U32) : Bool := Serial.lte i1 i2

/-- A TSN after another. -/
def sna32gt (i1 i2 : U32) : Bool := Serial.gt i1 i2

/-- A TSN at or after another. -/
def sna32gte (i1 i2 : U32) : Bool := Serial.gte i1 i2

/-- Equality of TSNs. -/
def sna32eq (i1 i2 : U32) : Bool := i1 == i2

/-- The same comparisons on `u16`, for SSNs. -/
def sna16lt (i1 i2 : U16) : Bool := Serial.lt i1 i2

/-- An SSN at or before another. -/
def sna16lte (i1 i2 : U16) : Bool := Serial.lte i1 i2

/-- An SSN after another. -/
def sna16gt (i1 i2 : U16) : Bool := Serial.gt i1 i2

/-- An SSN at or after another. -/
def sna16gte (i1 i2 : U16) : Bool := Serial.gte i1 i2

/-- Equality of SSNs. -/
def sna16eq (i1 i2 : U16) : Bool := i1 == i2

/-- `std::cmp::min` of two unsigned numbers. -/
def cmpMin {w : ℕ} (a b : BitVec w) : BitVec w := if a ≤ b then a else b

/-- `std::cmp::max` of two unsigned numbers. -/
def cmpMax {w : ℕ} (a b : BitVec w) : BitVec w := if a ≤ b then b else a

/-- At most three bytes of padding. -/
theorem getPaddingSize_lt (len : ℕ) : getPaddingSize len < 4 := Nat.mod_lt _ (by decide)

/-- Padding rounds up to a multiple of four. -/
theorem add_getPaddingSize_mod (len : ℕ) : (len + getPaddingSize len) % 4 = 0 := by
  unfold getPaddingSize paddingMultiple
  omega

/-- Padding does not see what is padded already. -/
theorem getPaddingSize_add {a : ℕ} (h : a % 4 = 0) (b : ℕ) :
    getPaddingSize (a + b) = getPaddingSize b := by
  unfold getPaddingSize paddingMultiple
  omega

/-- One TSN is before another by distance. -/
theorem sna32lt_iff (a b : U32) :
    sna32lt a b = true ↔ 0 < Serial.dist a b ∧ Serial.dist a b < 2 ^ 31 :=
  Serial.lt_iff (by decide) a b

/-- At or before it. -/
theorem sna32lte_iff (a b : U32) : sna32lte a b = true ↔ Serial.dist a b < 2 ^ 31 :=
  Serial.lte_iff (by decide) a b

/-- Behind it. -/
theorem sna32gt_iff (a b : U32) : sna32gt a b = true ↔ 2 ^ 31 ≤ Serial.dist a b :=
  Serial.gt_iff (by decide) a b

/-- The same for SSNs. -/
theorem sna16gt_iff (a b : U16) : sna16gt a b = true ↔ 2 ^ 15 ≤ Serial.dist a b :=
  Serial.gt_iff (by decide) a b

/-- The TSN `k` increments after `base`. -/
abbrev U32.after (base : U32) (k : ℕ) : U32 := base + BitVec.ofNat 32 k

/-- Inside a window of the TSN space the comparison is the order of the offsets. -/
theorem sna32lt_iff_dist_lt {base a b : U32} (ha : Serial.dist base a ≤ 2 ^ 31)
    (hb : Serial.dist base b ≤ 2 ^ 31) (ha' : 0 < Serial.dist base a)
    (hb' : 0 < Serial.dist base b) :
    sna32lt a b = true ↔ Serial.dist base a < Serial.dist base b :=
  Serial.lt_iff_dist_lt (by decide) (by simp only [Serial.half]; omega)
    (by simp only [Serial.half]; omega)

/-- What is no further from the base is not ahead. -/
theorem not_sna32lt_of_dist_le {base a b : U32} (h : Serial.dist base b ≤ Serial.dist base a)
    (ha : Serial.dist base a ≤ 2 ^ 31) : ¬ sna32lt a b = true := by
  rw [sna32lt_iff]
  have hback : Serial.dist b a = Serial.dist base a - Serial.dist base b := Serial.dist_sub h
  by_cases hab : a = b
  · subst hab
    rw [Serial.dist_self]
    omega
  · have hab' : Serial.dist a b = 2 ^ 32 - Serial.dist b a := Serial.dist_comm_of_ne (Ne.symm hab)
    omega

/-! Loops over TSNs: `while sna32lt(i, end)` and `while sna32lte(i, end)`. -/

/-- One step towards a number is one less to go. -/
theorem dist_succ_of_pos {i e : U32} (h : 0 < Serial.dist i e) :
    Serial.dist (i + 1) e + 1 = Serial.dist i e := by
  have h1 : Serial.dist i (i + 1) = 1 := Serial.dist_add_ofNat i (k := 1) (by decide)
  have h2 : Serial.dist (i + 1) e = Serial.dist i e - Serial.dist i (i + 1) :=
    Serial.dist_sub (by omega)
  omega

/-- With each step of a loop below a TSN there is one less to go. -/
theorem dist_succ_lt_of_sna32lt {i e : U32} (h : sna32lt i e = true) :
    Serial.dist (i + 1) e < Serial.dist i e := by
  have := dist_succ_of_pos ((sna32lt_iff i e).mp h).1
  omega

/-- After a step there is something left unless the number was the last. -/
theorem sna32lte_succ_iff {i e : U32} (h : Serial.dist i e < 2 ^ 31) :
    sna32lte (i + 1) e = true ↔ 0 < Serial.dist i e := by
  rw [sna32lte_iff]
  rcases Nat.eq_zero_or_pos (Serial.dist i e) with h0 | hpos
  · have hi : e = i := Serial.dist_eq_zero.mp h0
    subst hi
    have h1 : Serial.dist (e + 1) e = 2 ^ 32 - 1 := by
      rw [Serial.dist_comm_of_ne (a := e) (b := e + 1) (by bv_omega)]
      rw [show Serial.dist e (e + 1) = 1 from Serial.dist_add_ofNat e (k := 1) (by decide)]
    omega
  · have := dist_succ_of_pos hpos
    omega

/-- The rounds left of a loop `while sna32lte(i, end)`. -/
def roundsLeft (i e : U32) : ℕ := if sna32lte i e then Serial.dist i e + 1 else 0

/-- A loop up to a TSN has one round less to go after each. -/
theorem roundsLeft_succ {i e : U32} (h : sna32lte i e = true) :
    roundsLeft (i + 1) e + 1 = roundsLeft i e := by
  have hdist := (sna32lte_iff i e).mp h
  unfold roundsLeft
  rw [if_pos h]
  by_cases hmore : sna32lte (i + 1) e = true
  · rw [if_pos hmore]
    rw [sna32lte_succ_iff hdist] at hmore
    have hstep := dist_succ_of_pos hmore
    omega
  · rw [if_neg hmore]
    rw [sna32lte_succ_iff hdist] at hmore
    omega

/-- So it ends. -/
theorem roundsLeft_succ_lt {i e : U32} (h : sna32lte i e = true) :
    roundsLeft (i + 1) e < roundsLeft i e := by
  have hone := roundsLeft_succ h
  omega

end Sctp
