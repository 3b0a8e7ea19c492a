import Mathlib.Algebra.Group.Nat.Defs
import Mathlib.Data.Int.Order.Basic

/-!
# The binary32 interchange format, as far as comparison and storage go

Sign, biased exponent and fraction.  Comparisons of non-NaN values are comparisons of
signed magnitudes (`order`), so range checks and clamping need no arithmetic.  A value is stored in
32 bits (`bits`), which tell it (`ofBits_bits`).
-/

/-- A single-precision value by its three fields. -/
structure Binary32 where
  /-- The sign bit, set for negative values. -/
  sign : Bool
  /-- The biased exponent; all ones for infinities and NaNs. -/
  exponent : BitVec 8
  /-- The fraction bits. -/
  fraction : BitVec 23
deriving DecidableEq, Repr

namespace Binary32

/-- Positive zero, the value-initialised `float`. -/
def zero : Binary32 := ⟨false, 0, 0⟩

/-- `1.0F`. -/
def one : Binary32 := ⟨false, 127, 0⟩

/-- `-1.0F`. -/
def negOne : Binary32 := ⟨true, 127, 0⟩

/-- `std::isfinite`: neither an infinity nor a NaN. -/
def isFinite (x : Binary32) : Bool := x.exponent != 255

/-- Not a number. -/
def isNaN (x : Binary32) : Bool := x.exponent == 255 && x.fraction != 0

/-- The signed magnitude; it orders the non-NaN values (both zeros are `0`). -/
def order (x : Binary32) : Int :=
  let magnitude : Nat := x.exponent.toNat * 2 ^ 23 + x.fraction.toNat
  if x.sign then -magnitude else magnitude

/-- `x < y`; false when either side is a NaN. -/
def lt (x y : Binary32) : Bool := !x.isNaN && !y.isNaN && x.order < y.order

/-- `x != y`; true when either side is a NaN. -/
def ne (x y : Binary32) : Bool := x.isNaN || y.isNaN || x.order != y.order

/-- `x == y`; false when either side is a NaN. -/
def eq (x y : Binary32) : Bool := !x.ne y

/-- `std::clamp(x, lo, hi)`. -/
def clamp (x lo hi : Binary32) : Binary32 :=
  if x.lt lo then lo else if hi.lt x then hi else x

/-! ### The encoding in 32 bits -/

/-- The bits of a value, as a number. -/
def bits (x : Binary32) : Nat :=
  (if x.sign then 2 ^ 31 else 0) + x.exponent.toNat * 2 ^ 23 + x.fraction.toNat

/-- The value with these bits. -/
def ofBits (n : Nat) : Binary32 := ⟨decide (2 ^ 31 ≤ n), BitVec.ofNat 8 (n / 2 ^ 23), BitVec.ofNat 23 n⟩

theorem bits_lt (x : Binary32) : x.bits < 2 ^ 32 := by
  have hexponent : x.exponent.toNat < 2 ^ 8 := x.exponent.isLt
  have hfraction : x.fraction.toNat < 2 ^ 23 := x.fraction.isLt
  unfold bits
  split <;> omega

/-- **Writing and reading a value.** -/
theorem ofBits_bits (x : Binary32) : ofBits x.bits = x := by
  obtain ⟨sign, exponent, fraction⟩ := x
  have hexponent : exponent.toNat < 2 ^ 8 := exponent.isLt
  have hfraction : fraction.toNat < 2 ^ 23 := fraction.isLt
  unfold ofBits bits
  dsimp only
  congr 1
  · cases sign with
    | true => exact decide_eq_true (by simp only [if_true]; omega)
    | false => exact decide_eq_false (by simp only [Bool.false_eq_true, if_false]; omega)
  · refine BitVec.eq_of_toNat_eq ?_
    rw [BitVec.toNat_ofNat]
    split <;> omega
  · refine BitVec.eq_of_toNat_eq ?_
    rw [BitVec.toNat_ofNat]
    split <;> omega

end Binary32
