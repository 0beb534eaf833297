import Mathlib.Data.Rat.Floor
import MetricWatch.Proofs.Number.Nearest

namespace MetricWatch

/-! Doubles with their signs: the numbers that they stand for, their products with whole numbers,
and their whole parts. -/

/-- The whole number next to a number on the side of zero. -/
def truncation (number : ℚ) : Int :=
  if 0 ≤ number then ⌊number⌋ else ⌈number⌉

theorem truncation_neg (number : ℚ) : truncation (-number) = -truncation number := by
  rcases lt_trichotomy number 0 with negative | rfl | positive
  · rw [truncation, if_pos (by linarith), truncation, if_neg (not_le.mpr negative), Int.floor_neg]
  · simp [truncation]
  · rw [truncation, if_neg (by linarith), truncation, if_pos positive.le, Int.ceil_neg]

theorem truncation_mono {number other : ℚ} (order : number ≤ other) :
    truncation number ≤ truncation other := by
  rw [truncation, truncation]
  split
  case isTrue notNegative =>
    rw [if_pos (notNegative.trans order)]
    exact Int.floor_le_floor order
  case isFalse negative =>
    split
    case isTrue otherNotNegative =>
      have notPositive : ⌈number⌉ ≤ 0 := Int.ceil_le.mpr (by push_cast; linarith)
      exact notPositive.trans (Int.floor_nonneg.mpr otherNotNegative)
    case isFalse => exact Int.ceil_le_ceil order

theorem Magnitude.wholePart_eq_floor (magnitude : Magnitude) :
    (magnitude.wholePart : Int) = ⌊magnitude.value⌋ := by
  rw [value, Rat.floor_natCast_div_natCast]
  rfl

theorem Magnitude.isNearest_timesNat (magnitude : Magnitude) (factor : Nat) :
    (magnitude.timesNat factor).IsNearest (magnitude.value * factor) := by
  have isNearest := isNearest_nearest unitsPerOne_pos (magnitude.units * factor)
  rwa [Nat.cast_mul, mul_div_right_comm] at isNearest

theorem Magnitude.IsNearest.value_eq_zero {magnitude : Magnitude}
    (isNearest : magnitude.IsNearest 0) : magnitude.value = 0 := by
  have isZero := Magnitude.zero.isNearest_value
  rw [Magnitude.value_zero] at isZero
  rw [isNearest.unique isZero, Magnitude.value_zero]

namespace Binary64

/-- The number that a double stands for. An infinity stands for the power of two behind the
largest finite double. -/
def exact : Binary64 → ℚ
  | .nan => 0
  | .number negative magnitude => if negative then -magnitude.value else magnitude.value

def opposite : Binary64 → Binary64
  | .nan => .nan
  | .number negative magnitude => .number (!negative) magnitude

theorem exact_opposite (value : Binary64) : value.opposite.exact = -value.exact := by
  cases value with
  | nan => exact neg_zero.symm
  | number negative magnitude =>
      cases negative with
      | false => rfl
      | true => exact (neg_neg magnitude.value).symm

theorem truncated?_of_isFinite {value : Binary64} (finite : value.isFinite = true) :
    value.truncated? = some (truncation value.exact) := by
  cases value with
  | nan => cases finite
  | number negative magnitude =>
      have whole : truncation magnitude.value = magnitude.wholePart := by
        rw [truncation, if_pos magnitude.value_nonneg, magnitude.wholePart_eq_floor]
      rw [isFinite, Bool.not_eq_true'] at finite
      rw [truncated?, finite, if_neg Bool.false_ne_true]
      cases negative with
      | false => rw [if_neg Bool.false_ne_true, exact, if_neg Bool.false_ne_true, whole]
      | true => rw [if_pos rfl, exact, if_pos rfl, truncation_neg, whole]

theorem truncated?_eq_none_iff {value : Binary64} :
    value.truncated? = none ↔ value.isFinite = false := by
  cases finite : value.isFinite with
  | true => exact iff_of_false (by rw [truncated?_of_isFinite finite]; exact nofun) nofun
  | false =>
      refine iff_of_true ?_ rfl
      cases value with
      | nan => rfl
      | number negative magnitude =>
          rw [isFinite, Bool.not_eq_false'] at finite
          rw [truncated?, if_pos finite]

theorem truncated?_eq_some_iff {value : Binary64} {whole : Int} :
    value.truncated? = some whole ↔ value.isFinite = true ∧ whole = truncation value.exact := by
  cases finite : value.isFinite with
  | true => rw [truncated?_of_isFinite finite, Option.some.injEq, eq_comm, and_iff_right rfl]
  | false => exact iff_of_false (by rw [truncated?_eq_none_iff.mpr finite]; exact nofun) nofun

/-! Products. -/

/-- The double nearest to the product of a double and a whole number. It keeps the sign. -/
inductive IsProduct (factor : Nat) : Binary64 → Binary64 → Prop
  | rounded {negative : Bool} {magnitude product : Magnitude} :
      product.IsNearest (magnitude.value * factor) →
        IsProduct factor (.number negative magnitude) (.number negative product)

theorem isProduct_timesNat (factor : Nat) (negative : Bool) (magnitude : Magnitude) :
    IsProduct factor (.number negative magnitude)
      ((Binary64.number negative magnitude).timesNat factor) :=
  .rounded (magnitude.isNearest_timesNat factor)

section Order

variable {factor : Nat} {value other product otherProduct : Binary64}

theorem IsProduct.unique (isProduct : IsProduct factor value product)
    (isOther : IsProduct factor value otherProduct) : product = otherProduct := by
  cases isProduct with
  | rounded isNearest =>
      cases isOther with
      | rounded otherNearest => rw [isNearest.unique otherNearest]

theorem IsProduct.opposite (isProduct : IsProduct factor value product) :
    IsProduct factor value.opposite product.opposite := by
  cases isProduct with
  | rounded isNearest => exact .rounded isNearest

/-- Rounded products are in the order of the factors. -/
theorem IsProduct.mono (isProduct : IsProduct factor value product)
    (isOther : IsProduct factor other otherProduct) (order : value.exact ≤ other.exact) :
    product.exact ≤ otherProduct.exact := by
  have notNegative : (0 : ℚ) ≤ factor := Nat.cast_nonneg factor
  cases isProduct with
  | @rounded negative magnitude product isNearest =>
      cases isOther with
      | @rounded otherNegative otherMagnitude otherProduct otherNearest =>
          cases negative <;> cases otherNegative
          case false.false =>
            exact isNearest.mono otherNearest (mul_le_mul_of_nonneg_right order notNegative)
          case true.true =>
            have order := mul_le_mul_of_nonneg_right (neg_le_neg_iff.mp order) notNegative
            exact neg_le_neg (otherNearest.mono isNearest order)
          case true.false =>
            exact (neg_nonpos.mpr product.value_nonneg).trans otherProduct.value_nonneg
          case false.true =>
            -- A double is not above the opposite of another one unless both are zeros.
            have isZero : magnitude.value = 0 := le_antisymm
              (order.trans (neg_nonpos.mpr otherMagnitude.value_nonneg)) magnitude.value_nonneg
            have otherIsZero : otherMagnitude.value = 0 := le_antisymm
              (neg_nonneg.mp (magnitude.value_nonneg.trans order)) otherMagnitude.value_nonneg
            rw [isZero, zero_mul] at isNearest
            rw [otherIsZero, zero_mul] at otherNearest
            change product.value ≤ -otherProduct.value
            rw [isNearest.value_eq_zero, otherNearest.value_eq_zero, neg_zero]

end Order

end Binary64

end MetricWatch
