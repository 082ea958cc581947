import Mathlib.Algebra.Order.Field.Rat
import Mathlib.Tactic.FieldSimp
import Seyal.Client.PaneTree
import Seyal.Program.Limbs
import Seyal.Program.Tiling

namespace Seyal.Client

open Program

/-! Exact coordinates of panes. -/

def ratioDenominator : Nat := 10000

def limbBase : Nat := 1000000000

theorem limbBase_wide : 1 < limbBase := by decide

theorem ratioDenominator_le : ratioDenominator ≤ limbBase := by decide

/-- Limbs of nine decimal digits, the lowest first. -/
structure BigNat where
  limbs : List Nat
  canonical : Limbs.Canonical limbBase limbs

namespace BigNat

def value (number : BigNat) : Nat := Nat.ofDigits limbBase number.limbs

def zero : BigNat := ⟨[0], Limbs.canonical_zero limbBase_wide⟩

theorem canonical_one : Limbs.Canonical limbBase [1] :=
  ⟨fun limb inside => by rw [List.mem_singleton.mp inside]; exact limbBase_wide, List.cons_ne_nil _ _, .inl rfl⟩

def one : BigNat := ⟨[1], canonical_one⟩

def cmp (number other : BigNat) : Ordering := Limbs.cmp number.limbs other.limbs

def add (number other : BigNat) : BigNat :=
  ⟨Limbs.add limbBase number.limbs other.limbs, Limbs.canonical_add limbBase_wide number.canonical other.canonical⟩

def sub (number other : BigNat) : BigNat :=
  ⟨Limbs.sub limbBase number.limbs other.limbs, Limbs.canonical_sub number.canonical other.canonical⟩

/-- The factor is a ratio or its denominator. -/
def mulSmall (number : BigNat) (factor : Nat) (fits : factor ≤ limbBase) : BigNat :=
  ⟨Limbs.mulSmall limbBase number.limbs factor, Limbs.canonical_mulSmall limbBase_wide fits number.canonical⟩

variable (number other : BigNat)

theorem cmp_eq : number.cmp other = compare number.value other.value :=
  Limbs.cmp_eq limbBase_wide number.canonical other.canonical

@[simp] theorem value_zero : zero.value = 0 := by simp [zero, value]

@[simp] theorem value_one : one.value = 1 := by simp [one, value]

@[simp] theorem value_add : (number.add other).value = number.value + other.value := Limbs.ofDigits_add ..

@[simp] theorem value_mulSmall (factor : Nat) (fits : factor ≤ limbBase) :
    (number.mulSmall factor fits).value = number.value * factor :=
  Limbs.ofDigits_mulSmall ..

theorem value_sub (below : other.value ≤ number.value) : (number.sub other).value = number.value - other.value :=
  Limbs.ofDigits_sub number.canonical other.canonical below

end BigNat

/-- `numerator / 10_000^scale` -/
structure Exact where
  numerator : BigNat
  scale : Nat

namespace Exact

def zero : Exact := ⟨.zero, 0⟩

def one : Exact := ⟨.one, 0⟩

def scaleUp : Nat → BigNat → BigNat
  | 0, numerator => numerator
  | times + 1, numerator => scaleUp times (numerator.mulSmall ratioDenominator ratioDenominator_le)

def atScale (number : Exact) (scale : Nat) : BigNat := scaleUp (scale - number.scale) number.numerator

def cmp (number other : Exact) : Ordering :=
  let scale := max number.scale other.scale
  (number.atScale scale).cmp (other.atScale scale)

def add (number other : Exact) : Exact :=
  let scale := max number.scale other.scale
  ⟨(number.atScale scale).add (other.atScale scale), scale⟩

def sub (number other : Exact) : Exact :=
  let scale := max number.scale other.scale
  ⟨(number.atScale scale).sub (other.atScale scale), scale⟩

def absDiff (number other : Exact) : Exact :=
  if number.cmp other = .lt then other.sub number else number.sub other

theorem ratio_fits (ratio : SplitRatio) : ratio.basisPoints ≤ limbBase := ratio.atMost.trans (by decide)

def splitPoint (start stop : Exact) (ratio : SplitRatio) : Exact :=
  let scale := max start.scale stop.scale
  let startNumerator := start.atScale scale
  let extent := (stop.atScale scale).sub startNumerator
  ⟨(startNumerator.mulSmall ratioDenominator ratioDenominator_le).add
    (extent.mulSmall ratio.basisPoints (ratio_fits ratio)), scale + 1⟩

def toRat (number : Exact) : ℚ := number.numerator.value / 10000 ^ number.scale

theorem value_scaleUp (times : Nat) (numerator : BigNat) :
    (scaleUp times numerator).value = numerator.value * 10000 ^ times := by
  induction times generalizing numerator with
  | zero => simp [scaleUp]
  | succ times ih =>
      rw [scaleUp, ih, BigNat.value_mulSmall, ratioDenominator, pow_succ]
      ring

theorem value_atScale {number : Exact} {scale : Nat} (fits : number.scale ≤ scale) :
    ((number.atScale scale).value : ℚ) = number.toRat * 10000 ^ scale := by
  rw [atScale, value_scaleUp, toRat]
  push_cast
  rw [div_mul_eq_mul_div, eq_div_iff (by positivity), mul_assoc, ← pow_add, Nat.sub_add_cancel fits]

variable {number other start stop : Exact}

theorem atScale_lt {scale : Nat} (fits : number.scale ≤ scale) (also : other.scale ≤ scale) :
    (number.atScale scale).value < (other.atScale scale).value ↔ number.toRat < other.toRat := by
  have positive : (0 : ℚ) < 10000 ^ scale := by positivity
  rw [← Nat.cast_lt (α := ℚ), value_atScale fits, value_atScale also, mul_lt_mul_iff_of_pos_right positive]

theorem cmp_eq_lt : number.cmp other = .lt ↔ number.toRat < other.toRat := by
  rw [cmp, BigNat.cmp_eq, Nat.compare_eq_lt, atScale_lt (Nat.le_max_left _ _) (Nat.le_max_right _ _)]

theorem cmp_eq_gt : number.cmp other = .gt ↔ other.toRat < number.toRat := by
  rw [cmp, BigNat.cmp_eq, Nat.compare_eq_gt, atScale_lt (Nat.le_max_right _ _) (Nat.le_max_left _ _)]

theorem cmp_eq_eq : number.cmp other = .eq ↔ number.toRat = other.toRat := by
  rw [cmp, BigNat.cmp_eq, Nat.compare_eq_eq, eq_iff_le_not_lt, eq_iff_le_not_lt, ← not_lt, ← not_lt,
    atScale_lt (Nat.le_max_left _ _) (Nat.le_max_right _ _), atScale_lt (Nat.le_max_right _ _) (Nat.le_max_left _ _)]

theorem toRat_zero : zero.toRat = 0 := by simp [toRat, zero]

theorem toRat_one : one.toRat = 1 := by simp [toRat, one]

theorem toRat_add : (number.add other).toRat = number.toRat + other.toRat := by
  have positive : (0 : ℚ) < 10000 ^ max number.scale other.scale := by positivity
  rw [toRat, add, BigNat.value_add]
  push_cast
  rw [value_atScale (Nat.le_max_left _ _), value_atScale (Nat.le_max_right _ _)]
  field_simp

theorem atScale_le {scale : Nat} (fits : number.scale ≤ scale) (also : other.scale ≤ scale)
    (below : other.toRat ≤ number.toRat) : (other.atScale scale).value ≤ (number.atScale scale).value :=
  not_lt.mp fun above => not_lt.mpr below ((atScale_lt fits also).mp above)

theorem toRat_sub (below : other.toRat ≤ number.toRat) : (number.sub other).toRat = number.toRat - other.toRat := by
  have positive : (0 : ℚ) < 10000 ^ max number.scale other.scale := by positivity
  have fits := atScale_le (Nat.le_max_left number.scale other.scale) (Nat.le_max_right _ _) below
  rw [toRat, sub, BigNat.value_sub _ _ fits, Nat.cast_sub fits, value_atScale (Nat.le_max_left _ _),
    value_atScale (Nat.le_max_right _ _)]
  field_simp

theorem toRat_absDiff : (number.absDiff other).toRat = |number.toRat - other.toRat| := by
  rw [absDiff]
  split
  next less =>
    have below := cmp_eq_lt.mp less
    rw [toRat_sub below.le, abs_of_neg (by linarith)]
    ring
  next notLess =>
    have above : other.toRat ≤ number.toRat := not_lt.mp fun below => notLess (cmp_eq_lt.mpr below)
    rw [toRat_sub above, abs_of_nonneg (by linarith)]

theorem toRat_splitPoint (ratio : SplitRatio) (ordered : start.toRat ≤ stop.toRat) :
    (splitPoint start stop ratio).toRat = start.toRat + (stop.toRat - start.toRat) * ratio.basisPoints / 10000 := by
  have positive : (0 : ℚ) < 10000 ^ max start.scale stop.scale := by positivity
  have fits := atScale_le (Nat.le_max_right start.scale stop.scale) (Nat.le_max_left _ _) ordered
  have denominator : (ratioDenominator : ℚ) = 10000 := by norm_num [ratioDenominator]
  rw [toRat, splitPoint, BigNat.value_add, BigNat.value_mulSmall, BigNat.value_mulSmall, BigNat.value_sub _ _ fits]
  push_cast
  rw [denominator, Nat.cast_sub fits, value_atScale (Nat.le_max_left _ _), value_atScale (Nat.le_max_right _ _), pow_succ]
  field_simp

end Exact

end Seyal.Client
