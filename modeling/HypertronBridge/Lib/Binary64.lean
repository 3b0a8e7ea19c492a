import HypertronBridge.Lib.Binary32
import Mathlib.Algebra.Group.Nat.Defs
import Mathlib.Data.Int.Order.Basic

/-!
# The binary64 interchange format, as far as comparison, printing and narrowing go

Sign, biased exponent and fraction.  Comparisons of non-NaN values are comparisons of signed
magnitudes; the decimal form with six digits after the point is that of `std::to_string`.  A value is
narrowed to binary32 by rounding its magnitude.
-/

/-- A double-precision value by its three fields. -/
structure Binary64 where
  /-- The sign bit, set for negative values. -/
  sign : Bool
  /-- The biased exponent; all ones for infinities and NaNs. -/
  exponent : BitVec 11
  /-- The fraction bits. -/
  fraction : BitVec 52
deriving DecidableEq, Repr

namespace Binary64

/-- The value of these fields with the sign bit clear. -/
def positive (exponent : BitVec 11) (fraction : BitVec 52) : Binary64 := ⟨false, exponent, fraction⟩

/-- Positive zero. -/
def zero : Binary64 := positive 0 0

/-- `1.0`. -/
def one : Binary64 := positive 0x3FF 0

/-- `1e9`. -/
def billion : Binary64 := positive 0x41C 0xDCD6500000000

/-- `std::isfinite`: neither an infinity nor a NaN. -/
def isFinite (x : Binary64) : Bool := x.exponent != 2047

/-- Not a number. -/
def isNaN (x : Binary64) : Bool := x.exponent == 2047 && x.fraction != 0

/-- The signed magnitude; it orders the non-NaN values (both zeros are `0`). -/
def order (x : Binary64) : Int :=
  let magnitude : Nat := x.exponent.toNat * 2 ^ 52 + x.fraction.toNat
  if x.sign then -magnitude else magnitude

/-- `std::fabs`. -/
def abs (x : Binary64) : Binary64 := { x with sign := false }

/-- `x < y`; false when either side is a NaN. -/
def lt (x y : Binary64) : Bool := !x.isNaN && !y.isNaN && decide (x.order < y.order)

/-- `x <= y`; false when either side is a NaN. -/
def le (x y : Binary64) : Bool := !x.isNaN && !y.isNaN && decide (x.order ≤ y.order)

/-- `x == y`; false when either side is a NaN. -/
def eq (x y : Binary64) : Bool := !x.isNaN && !y.isNaN && decide (x.order = y.order)

/-- `n / d`, rounded to the nearest integer, and to the even one between two. -/
def roundedDiv (n d : Nat) : Nat :=
  if d < 2 * (n % d) ∨ 2 * (n % d) = d ∧ n / d % 2 = 1 then n / d + 1 else n / d

/-- The magnitude of a finite value in millionths. -/
def millionths (x : Binary64) : Nat :=
  let significand := if x.exponent = 0 then x.fraction.toNat else 2 ^ 52 + x.fraction.toNat
  let power := if x.exponent = 0 then 1 else x.exponent.toNat
  if 1075 ≤ power then significand * 2 ^ (power - 1075) * 1000000
  else roundedDiv (significand * 1000000) (2 ^ (1075 - power))

/-- `std::to_string`: fixed notation with six digits after the point. -/
def toString (x : Binary64) : String :=
  let sign := if x.sign then "-" else ""
  if x.isNaN then sign ++ "nan"
  else if !x.isFinite then sign ++ "inf"
  else
    let digits := Nat.repr (x.millionths % 1000000)
    sign ++ Nat.repr (x.millionths / 1000000) ++ "." ++ "".pushn '0' (6 - digits.length) ++ digits

example : (⟨true, 1024, 0x4000000000000⟩ : Binary64).toString = "-2.500000" := by decide +kernel

/-! ### Narrowing -/

/-- The exponent and fraction of the binary32 value nearest to a finite magnitude, as one number: the
    exponent is counted from the smallest one, and a fraction that is rounded up carries into it. -/
def narrowed (x : Binary64) : Nat :=
  let significand := if x.exponent = 0 then x.fraction.toNat else 2 ^ 52 + x.fraction.toNat
  let power := if x.exponent = 0 then 1 else x.exponent.toNat
  if 897 ≤ power then (power - 897) * 2 ^ 23 + roundedDiv significand (2 ^ 29)
  else roundedDiv significand (2 ^ (926 - power))

/-- The conversion of a `double` to a `float`, to nearest; what is too large becomes an infinity. -/
def toBinary32 (x : Binary64) : Binary32 :=
  if x.isNaN then ⟨x.sign, 255, 1 <<< 22⟩
  else
    let magnitude := if x.isFinite then min x.narrowed (255 * 2 ^ 23) else 255 * 2 ^ 23
    ⟨x.sign, BitVec.ofNat 8 (magnitude / 2 ^ 23), BitVec.ofNat 23 magnitude⟩

/-- A finite value is not narrowed to a NaN. -/
theorem toBinary32_not_nan {x : Binary64} (hx : x.isFinite = true) : x.toBinary32.isNaN = false := by
  have hnan : x.isNaN = false := by
    unfold isFinite at hx
    unfold isNaN
    exact Bool.and_eq_false_iff.mpr (Or.inl (beq_eq_false_iff_ne.mpr (bne_iff_ne.mp hx)))
  have hle : min x.narrowed (255 * 2 ^ 23) ≤ 255 * 2 ^ 23 := Nat.min_le_right ..
  unfold toBinary32
  rw [if_neg (by simp [hnan]), if_pos hx]
  generalize min x.narrowed (255 * 2 ^ 23) = magnitude at hle
  -- all exponent bits are set for an infinity only, whose fraction is zero
  unfold Binary32.isNaN
  rw [Bool.and_eq_false_iff, beq_eq_false_iff_ne, bne_eq_false_iff_eq]
  by_cases hinf : magnitude = 255 * 2 ^ 23
  · refine Or.inr ?_
    rw [hinf]
    rfl
  · refine Or.inl (fun hexponent => ?_)
    have hnat := congrArg BitVec.toNat hexponent
    rw [BitVec.toNat_ofNat] at hnat
    have h255 : (255 : BitVec 8).toNat = 255 := rfl
    omega

/-! `1.5` and the greatest `double`, and a value between two `float`s. -/

example : (positive 0x3FF 0x8000000000000).toBinary32 = ⟨false, 127, 0x400000⟩ := by decide +kernel
example : (positive 0x7FE 0xFFFFFFFFFFFFF).toBinary32 = ⟨false, 255, 0⟩ := by decide +kernel
example : (⟨true, 0x3FB, 0x999999999999A⟩ : Binary64).toBinary32 = ⟨true, 123, 0x4CCCCD⟩ := by decide +kernel

end Binary64
