import Mathlib

/-!
# Fixed-width unsigned arithmetic and little-endian words

Unsigned machine integers are natural numbers reduced after every operation.
A 32-bit word is read from a byte store in little-endian order; comparing it
with a word made of one repeated byte is the same as comparing its four bytes.
-/

namespace Clarmor.Word

/-- Reduction of an unsigned 32-bit result. -/
def u32 (n : Nat) : Nat := n % 4294967296

/-- Reduction of an unsigned 64-bit result. -/
def u64 (n : Nat) : Nat := n % 18446744073709551616

theorem u32_lt (n : Nat) : u32 n < 4294967296 :=
  Nat.mod_lt _ (by decide)

theorem u32_of_lt {n : Nat} (small : n < 4294967296) : u32 n = n :=
  Nat.mod_eq_of_lt small

theorem u64_of_lt {n : Nat} (small : n < 18446744073709551616) : u64 n = n :=
  Nat.mod_eq_of_lt small

theorem u32_le (n : Nat) : u32 n ≤ n :=
  Nat.mod_le _ _

@[simp]
theorem u32_u32 (n : Nat) : u32 (u32 n) = u32 n :=
  Nat.mod_mod _ _

@[simp]
theorem u32_u32_add (m n : Nat) : u32 (u32 m + n) = u32 (m + n) :=
  Nat.mod_add_mod _ _ _

@[simp]
theorem u32_add_u32 (m n : Nat) : u32 (m + u32 n) = u32 (m + n) :=
  Nat.add_mod_mod _ _ _

theorem u32_mul_u32 (m n : Nat) : u32 (m * u32 n) = u32 (m * n) := by
  simp [u32, Nat.mul_mod]

theorem u32_u32_mul (m n : Nat) : u32 (u32 m * n) = u32 (m * n) := by
  simp [u32, Nat.mul_mod]

/-- A stride that is reduced at every step is a given stride exactly when one
step is and the last one is not reduced. -/
theorem stride_iff {n step unit : Nat} :
    (∀ k < n, u32 (k * step) = k * unit) ↔
      n ≤ 1 ∨ (n - 1) * unit < 4294967296 ∧ u32 step = u32 unit := by
  constructor
  · intro strides
    by_cases single : n ≤ 1
    · exact Or.inl single
    · have one := strides 1 (by omega)
      have last := strides (n - 1) (by omega)
      rw [Nat.one_mul, Nat.one_mul] at one
      refine Or.inr ⟨?_, ?_⟩
      · rw [← last]
        exact u32_lt _
      · rw [← one, u32_u32]
  · rintro (single | ⟨last, same⟩) k kLt
    · obtain rfl : k = 0 := by omega
      simp [u32]
    · have le : k * unit ≤ (n - 1) * unit := Nat.mul_le_mul_right unit (by omega)
      rw [← u32_mul_u32, same, u32_mul_u32, u32_of_lt (by omega)]

/-- A reduced value is exact precisely when nothing was cut off. -/
theorem u32_eq_self_iff {n : Nat} : u32 n = n ↔ n < 4294967296 := by
  constructor
  · intro unchanged
    rw [← unchanged]
    exact u32_lt n
  · exact u32_of_lt

/-- Reduction modulo `2^32` keeps residues modulo four. -/
theorem u32_mod_four (n : Nat) : u32 n % 4 = n % 4 := by
  unfold u32
  omega

/-- Difference of two unsigned 32-bit values. -/
def sub32 (m n : Nat) : Nat := u32 (m + (4294967296 - u32 n))

/-- A difference that does not go below zero is exact. -/
theorem sub32_of_le {m n : Nat} (mLt : m < 4294967296) (le : n ≤ m) : sub32 m n = m - n := by
  unfold sub32 u32
  omega

/-- Difference of two unsigned 64-bit values. -/
def sub64 (m n : Nat) : Nat := u64 (m + (18446744073709551616 - u64 n))

theorem sub64_of_le {m n : Nat} (mLt : m < 18446744073709551616) (le : n ≤ m) :
    sub64 m n = m - n := by
  unfold sub64 u64
  omega

/-- Taking off what was added gives the residue back. -/
theorem sub64_u64_add (m n : Nat) : sub64 (u64 (m + n)) n = u64 m := by
  unfold sub64 u64
  omega

/-- Two's-complement reading of a 32-bit value. -/
def toInt32 (n : Nat) : Int :=
  if u32 n < 2147483648 then (u32 n : Int) else (u32 n : Int) - 4294967296

theorem toInt32_of_lt {n : Nat} (small : n < 2147483648) : toInt32 n = n := by
  have reduced : u32 n = n := u32_of_lt (by omega)
  simp [toInt32, reduced, small]

/-- A result of signed 32-bit arithmetic that is not negative.  When it does not fit,
the arithmetic is undefined. -/
def int32 (n : Nat) : Option Nat := if n < 2147483648 then some n else none

theorem int32_of_lt {n : Nat} (small : n < 2147483648) : int32 n = some n :=
  if_pos small

theorem int32_of_le {n : Nat} (large : 2147483648 ≤ n) : int32 n = none :=
  if_neg (not_lt.mpr large)

/-- The word-indexed `p`-th little-endian 32-bit word of a byte store. -/
def leWord (m : Nat → UInt8) (p : Nat) : Nat :=
  (m (4 * p)).toNat + 256 * (m (4 * p + 1)).toNat + 65536 * (m (4 * p + 2)).toNat +
    16777216 * (m (4 * p + 3)).toNat

/-- The 32-bit word whose four bytes are all `b`. -/
def splat (b : UInt8) : Nat := b.toNat * 16843009

/-- A word equals a repeated byte exactly when each of its bytes does. -/
theorem leWord_eq_splat_iff (m : Nat → UInt8) (p : Nat) (b : UInt8) :
    leWord m p = splat b ↔ ∀ q < 4, m (4 * p + q) = b := by
  have bound : ∀ c : UInt8, c.toNat < 256 := fun c => c.toNat_lt
  constructor
  · intro equal q qLt
    have b0 := bound (m (4 * p))
    have b1 := bound (m (4 * p + 1))
    have b2 := bound (m (4 * p + 2))
    have b3 := bound (m (4 * p + 3))
    have bb := bound b
    simp only [leWord, splat] at equal
    -- The digits in base 256 agree one after the other, the lowest first.
    have d0 : (m (4 * p)).toNat = b.toNat := by omega
    have d1 : (m (4 * p + 1)).toNat = b.toNat := by omega
    have d2 : (m (4 * p + 2)).toNat = b.toNat := by omega
    have d3 : (m (4 * p + 3)).toNat = b.toNat := by omega
    apply UInt8.toNat_inj.mp
    interval_cases q
    · exact d0
    · exact d1
    · exact d2
    · exact d3
  · intro bytes
    have h0 := bytes 0 (by decide)
    have h1 := bytes 1 (by decide)
    have h2 := bytes 2 (by decide)
    have h3 := bytes 3 (by decide)
    simp only [Nat.add_zero] at h0
    simp only [leWord, splat, h0, h1, h2, h3]
    ring

/-- The bytes of a word. -/
theorem leWord_byte (m : Nat → UInt8) (p : Nat) {i : Nat} (iLt : i < 4) :
    leWord m p / 256 ^ i % 256 = (m (4 * p + i)).toNat := by
  have b0 := (m (4 * p)).toNat_lt
  have b1 := (m (4 * p + 1)).toNat_lt
  have b2 := (m (4 * p + 2)).toNat_lt
  have b3 := (m (4 * p + 3)).toNat_lt
  unfold leWord
  interval_cases i
  · simp only [pow_zero, Nat.div_one, Nat.add_zero]
    omega
  · simp only [pow_one]
    omega
  · simp only [show 256 ^ 2 = 65536 by decide]
    omega
  · simp only [show 256 ^ 3 = 16777216 by decide]
    omega

theorem splat_byte (b : UInt8) {i : Nat} (iLt : i < 4) : splat b / 256 ^ i % 256 = b.toNat := by
  have word : leWord (fun _ => b) 0 = splat b :=
    (leWord_eq_splat_iff (fun _ => b) 0 b).mpr fun _ _ => rfl
  rw [← word, leWord_byte _ _ iLt]

/-- The bytes of an exclusive or. -/
theorem xor_byte (v w i : Nat) :
    (v ^^^ w) / 256 ^ i % 256 = (v / 256 ^ i % 256) ^^^ (w / 256 ^ i % 256) := by
  have power : 256 ^ i = 2 ^ (8 * i) := by rw [Nat.pow_mul]
  rw [power, Nat.xor_div_two_pow, show 256 = 2 ^ 8 by decide, Nat.xor_mod_two_pow]

/-! ## Readings of unsigned expressions -/

/-- How the unsigned integer expressions of a program are read: by the machine,
which reduces them, or as exact integers.  Sums and products of one width are
reduced once, at the end, which leaves the same residue. -/
structure Arith where
  wrap32 : Nat → Nat
  wrap64 : Nat → Nat
  sub32 : Nat → Nat → Nat

/-- Exact integers. -/
def Arith.exact : Arith := ⟨id, id, fun m n => m - n⟩

@[simp]
theorem exact_wrap32 (n : Nat) : Arith.exact.wrap32 n = n :=
  rfl

@[simp]
theorem exact_wrap64 (n : Nat) : Arith.exact.wrap64 n = n :=
  rfl

@[simp]
theorem exact_sub32 (m n : Nat) : Arith.exact.sub32 m n = m - n :=
  rfl

/-- The machine's `uint32_t` and `uint64_t`. -/
def Arith.machine : Arith := ⟨u32, u64, Word.sub32⟩

@[simp]
theorem machine_wrap32 (n : Nat) : Arith.machine.wrap32 n = u32 n :=
  rfl

@[simp]
theorem machine_wrap64 (n : Nat) : Arith.machine.wrap64 n = u64 n :=
  rfl

@[simp]
theorem machine_sub32 (m n : Nat) : Arith.machine.sub32 m n = sub32 m n :=
  rfl

end Clarmor.Word
