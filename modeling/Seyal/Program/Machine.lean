import Mathlib.Algebra.Order.BigOperators.Group.List
import Mathlib.Algebra.Order.Ring.Int
import Mathlib.Algebra.Order.Ring.Nat

namespace Seyal.Program

/-! Signed machine words as integers. -/

/-- What is left of a value in a word of 64 bits. -/
def wrap64 (value : Int) : Int := value.bmod (2 ^ 64)

/-- The nearest value that a word of 64 bits holds. -/
def saturate64 (value : Int) : Int := max (-2 ^ 63) (min value (2 ^ 63 - 1))

/-- Division panics on a zero divisor and on a quotient that a word does not hold. -/
def divide64 (value divisor : Int) : Option Int :=
  if divisor = 0 ∨ value = -2 ^ 63 ∧ divisor = -1 then none else some (value.tdiv divisor)

variable {value divisor : Int}

theorem wrap64_of_nonneg (nonneg : 0 ≤ value) (small : value < 2 ^ 63) : wrap64 value = value := by
  rw [wrap64, Int.bmod_eq_of_le (by omega) (by omega)]

theorem saturate64_of_abs_le (low : -2 ^ 63 ≤ value) (high : value ≤ 2 ^ 63 - 1) : saturate64 value = value := by
  rw [saturate64, min_eq_left high, max_eq_right low]

theorem saturate64_bounds (value : Int) : -2 ^ 63 ≤ saturate64 value ∧ saturate64 value ≤ 2 ^ 63 - 1 :=
  ⟨le_max_left _ _, max_le (by decide) (min_le_right _ _)⟩

theorem divide64_of_pos (nonneg : 0 ≤ value) (positive : 0 < divisor) :
    divide64 value divisor = some (value / divisor) := by
  rw [divide64, if_neg (by omega), Int.tdiv_eq_ediv_of_nonneg nonneg]

end Seyal.Program
