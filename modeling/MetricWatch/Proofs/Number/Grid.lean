import MetricWatch.Number.Shortest
import MetricWatch.Proofs.Number.DecimalValue

namespace MetricWatch

namespace Magnitude

/-! The two points of a grid around a magnitude. -/

def below (magnitude : Magnitude) (exponent : Int) : Decimal :=
  ⟨magnitude.gridNumerator exponent / gridDenominator exponent, exponent⟩

def above (magnitude : Magnitude) (exponent : Int) : Decimal :=
  ⟨magnitude.gridNumerator exponent / gridDenominator exponent + 1, exponent⟩

variable {magnitude : Magnitude} {exponent : Int}

theorem gridDenominator_pos (exponent : Int) : 0 < gridDenominator exponent :=
  Nat.mul_pos unitsPerOne_pos (Nat.pow_pos (by decide))

/-- Twice a magnitude against a multiple of a grid. -/
theorem value_eq_grid (magnitude : Magnitude) (exponent : Int) :
    magnitude.value * gridDenominator exponent =
      magnitude.gridNumerator exponent * 10 ^ exponent := by
  have notZero := unitsPerOne_cast_pos.ne'
  have scaled : ((Nat.pow 10 exponent.toNat : Nat) : ℚ) =
      (Nat.pow 10 (-exponent).toNat : Nat) * 10 ^ exponent := by
    rcases le_total 0 exponent with isWhole | isFraction
    · have ⟨count, isCount⟩ := Int.eq_ofNat_of_zero_le isWhole
      rw [isCount, Int.toNat_neg_natCast, Int.toNat_natCast, Decimal.ten_zpow_natCast]
      simp
    · have ⟨count, isCount⟩ := Int.eq_ofNat_of_zero_le (neg_nonneg.mpr isFraction)
      have isExponent : exponent = -(count : Int) := by omega
      have inverse : (10 : ℚ) ^ (count : Int) * 10 ^ (-(count : Int)) = 1 := by
        rw [← zpow_add₀ (by norm_num), add_neg_cancel, zpow_zero]
      rw [isExponent, Int.toNat_neg_natCast, Int.neg_neg, Int.toNat_natCast]
      change _ = ((10 ^ count : Nat) : ℚ) * _
      rw [← Decimal.ten_zpow_natCast, inverse]
      simp
  rw [value, gridDenominator, gridNumerator, Nat.cast_mul, Nat.cast_mul, scaled]
  field_simp

theorem value_below_le (magnitude : Magnitude) (exponent : Int) :
    (magnitude.below exponent).value ≤ magnitude.value := by
  have divides : (0 : ℚ) < gridDenominator exponent :=
    Nat.cast_pos.mpr (gridDenominator_pos exponent)
  have floor := Nat.div_mul_le_self (magnitude.gridNumerator exponent) (gridDenominator exponent)
  have floor : ((magnitude.gridNumerator exponent / gridDenominator exponent : Nat) : ℚ) *
      gridDenominator exponent ≤ magnitude.gridNumerator exponent := by exact_mod_cast floor
  refine le_of_mul_le_mul_right ?_ divides
  rw [value_eq_grid, Decimal.value, below, mul_right_comm]
  exact mul_le_mul_of_nonneg_right floor (Decimal.ten_zpow_pos _).le

theorem value_lt_above (magnitude : Magnitude) (exponent : Int) :
    magnitude.value < (magnitude.above exponent).value := by
  have divides : (0 : ℚ) < gridDenominator exponent :=
    Nat.cast_pos.mpr (gridDenominator_pos exponent)
  have ceiling := Nat.lt_div_mul_add (gridDenominator_pos exponent)
    (a := magnitude.gridNumerator exponent)
  have ceiling : (magnitude.gridNumerator exponent : ℚ) <
      ((magnitude.gridNumerator exponent / gridDenominator exponent + 1 : Nat) : ℚ) *
        gridDenominator exponent := by
    rw [← Nat.add_one_mul] at ceiling
    exact_mod_cast ceiling
  refine lt_of_mul_lt_mul_right ?_ divides.le
  rw [value_eq_grid, Decimal.value, above, mul_right_comm]
  exact mul_lt_mul_of_pos_right ceiling (Decimal.ten_zpow_pos _)

/-! The remainder tells on which side of the middle a magnitude is. -/

def doubledRemainder (magnitude : Magnitude) (exponent : Int) : Nat :=
  2 * (magnitude.gridNumerator exponent % gridDenominator exponent)

theorem middle_eq (magnitude : Magnitude) (exponent : Int) :
    (2 * magnitude.value -
        ((magnitude.below exponent).value + (magnitude.above exponent).value)) *
          gridDenominator exponent =
      ((magnitude.doubledRemainder exponent : ℚ) - gridDenominator exponent) * 10 ^ exponent := by
  have divided := Nat.div_add_mod (magnitude.gridNumerator exponent) (gridDenominator exponent)
  have divided : (gridDenominator exponent : ℚ) *
        (magnitude.gridNumerator exponent / gridDenominator exponent : Nat) +
      (magnitude.gridNumerator exponent % gridDenominator exponent : Nat) =
        magnitude.gridNumerator exponent := by exact_mod_cast divided
  rw [sub_mul, mul_assoc, value_eq_grid, ← divided, Decimal.value, Decimal.value, below, above,
    doubledRemainder]
  push_cast
  ring

theorem two_mul_value_lt_iff : 2 * magnitude.value <
      (magnitude.below exponent).value + (magnitude.above exponent).value ↔
    magnitude.doubledRemainder exponent < gridDenominator exponent := by
  have divides : (0 : ℚ) < gridDenominator exponent :=
    Nat.cast_pos.mpr (gridDenominator_pos exponent)
  have negated := congrArg Neg.neg (middle_eq magnitude exponent)
  rw [← neg_mul, neg_sub, ← neg_mul, neg_sub] at negated
  rw [← sub_pos, ← mul_pos_iff_of_pos_right divides, negated,
    mul_pos_iff_of_pos_right (Decimal.ten_zpow_pos _), sub_pos, Nat.cast_lt]

theorem lt_two_mul_value_iff :
    (magnitude.below exponent).value + (magnitude.above exponent).value < 2 * magnitude.value ↔
      gridDenominator exponent < magnitude.doubledRemainder exponent := by
  have divides : (0 : ℚ) < gridDenominator exponent :=
    Nat.cast_pos.mpr (gridDenominator_pos exponent)
  rw [← sub_pos, ← mul_pos_iff_of_pos_right divides, middle_eq,
    mul_pos_iff_of_pos_right (Decimal.ten_zpow_pos _), sub_pos, Nat.cast_lt]

/-! On a grid only these two points matter. -/

/-- A decimal that reads back, and among those with its exponent it is a nearest one. -/
structure IsBestOnGrid (magnitude : Magnitude) (decimal : Decimal) : Prop where
  readsBack : magnitude.IsNearest decimal.value
  least : ∀ other : Decimal, magnitude.IsNearest other.value → other.exponent = decimal.exponent →
    |decimal.value - magnitude.value| ≤ |other.value - magnitude.value|
  even : ∀ other : Decimal, magnitude.IsNearest other.value → other.exponent = decimal.exponent →
    |decimal.value - magnitude.value| = |other.value - magnitude.value| →
      other = decimal ∨ decimal.coefficient % 2 = 0

section Grid

variable {decimal : Decimal}

/-- Every point of a grid is on one side of the magnitude, behind or at the next point there. -/
theorem below_or_above (isPoint : decimal.exponent = exponent) :
    decimal.value ≤ (magnitude.below exponent).value ∨
      (magnitude.above exponent).value ≤ decimal.value := by
  have positive := Decimal.ten_zpow_pos exponent
  simp only [Decimal.value, isPoint, below, above]
  rw [mul_le_mul_iff_of_pos_right positive, mul_le_mul_iff_of_pos_right positive, Nat.cast_le,
    Nat.cast_le]
  omega

theorem isNearest_below_or_above (readsBack : magnitude.IsNearest decimal.value)
    (isPoint : decimal.exponent = exponent) :
    decimal.value ≤ (magnitude.below exponent).value ∧
        magnitude.IsNearest (magnitude.below exponent).value ∨
      (magnitude.above exponent).value ≤ decimal.value ∧
        magnitude.IsNearest (magnitude.above exponent).value := by
  have own := magnitude.isNearest_value
  rcases below_or_above isPoint with notAbove | notBelow
  · exact .inl ⟨notAbove, readsBack.between own notAbove (value_below_le magnitude exponent)⟩
  · exact .inr ⟨notBelow, own.between readsBack (value_lt_above magnitude exponent).le notBelow⟩

/-- It is enough to be better than the two points around the magnitude. -/
theorem isBestOnGrid_of (readsBack : magnitude.IsNearest decimal.value)
    (better : ∀ other, other = magnitude.below decimal.exponent ∨
      other = magnitude.above decimal.exponent → magnitude.IsNearest other.value →
        |decimal.value - magnitude.value| ≤ |other.value - magnitude.value| ∧
          (|decimal.value - magnitude.value| = |other.value - magnitude.value| →
            other = decimal ∨ decimal.coefficient % 2 = 0)) :
    magnitude.IsBestOnGrid decimal := by
  have further : ∀ other : Decimal, magnitude.IsNearest other.value →
      other.exponent = decimal.exponent → ∃ point, (point = magnitude.below decimal.exponent ∨
        point = magnitude.above decimal.exponent) ∧ magnitude.IsNearest point.value ∧
        |point.value - magnitude.value| ≤ |other.value - magnitude.value| ∧
        (|point.value - magnitude.value| = |other.value - magnitude.value| → other = point) := by
    intro other otherReadsBack isPoint
    have isBelow := value_below_le magnitude decimal.exponent
    have isAbove := (value_lt_above magnitude decimal.exponent).le
    rcases isNearest_below_or_above otherReadsBack isPoint with ⟨order, nearest⟩ | ⟨order, nearest⟩
    · refine ⟨_, .inl rfl, nearest, ?_, fun same => Decimal.eq_of_exponent_eq ?_ isPoint⟩
      · rw [abs_of_nonpos (by linarith), abs_of_nonpos (by linarith)]
        linarith
      · rw [abs_of_nonpos (by linarith), abs_of_nonpos (by linarith)] at same
        linarith
    · refine ⟨_, .inr rfl, nearest, ?_, fun same => Decimal.eq_of_exponent_eq ?_ isPoint⟩
      · rw [abs_of_nonneg (by linarith), abs_of_nonneg (by linarith)]
        linarith
      · rw [abs_of_nonneg (by linarith), abs_of_nonneg (by linarith)] at same
        linarith
  constructor
  case readsBack => exact readsBack
  case least =>
    intro other otherReadsBack isPoint
    have ⟨point, isNext, nearest, closer, _⟩ := further other otherReadsBack isPoint
    exact (better point isNext nearest).1.trans closer
  case even =>
    intro other otherReadsBack isPoint isTie
    have ⟨point, isNext, nearest, closer, same⟩ := further other otherReadsBack isPoint
    have ⟨least, even⟩ := better point isNext nearest
    rw [same (le_antisymm closer (isTie ▸ least))]
    exact even (le_antisymm least (isTie ▸ closer))

theorem value_below_lt_above (magnitude : Magnitude) (exponent : Int) :
    (magnitude.below exponent).value < (magnitude.above exponent).value :=
  (value_below_le magnitude exponent).trans_lt (value_lt_above magnitude exponent)

/-- The point below is best if the one above does not read back, or is no nearer. -/
theorem isBestOnGrid_below (readsBack : magnitude.IsNearest (magnitude.below exponent).value)
    (better : magnitude.IsNearest (magnitude.above exponent).value →
      2 * magnitude.value ≤ (magnitude.below exponent).value + (magnitude.above exponent).value ∧
        (2 * magnitude.value = (magnitude.below exponent).value +
          (magnitude.above exponent).value → (magnitude.below exponent).coefficient % 2 = 0)) :
    magnitude.IsBestOnGrid (magnitude.below exponent) := by
  have order := value_below_lt_above magnitude exponent
  apply isBestOnGrid_of readsBack
  rintro other (rfl | rfl) otherReadsBack
  · exact ⟨le_refl _, fun _ => .inl rfl⟩
  · have ⟨nearer, even⟩ := better otherReadsBack
    exact ⟨(abs_left_le_iff order _).mpr nearer,
      fun isTie => .inr (even ((abs_eq_abs_iff_middle order _).mp isTie))⟩

theorem isBestOnGrid_above (readsBack : magnitude.IsNearest (magnitude.above exponent).value)
    (better : magnitude.IsNearest (magnitude.below exponent).value →
      (magnitude.below exponent).value + (magnitude.above exponent).value ≤ 2 * magnitude.value ∧
        (2 * magnitude.value = (magnitude.below exponent).value +
          (magnitude.above exponent).value → (magnitude.above exponent).coefficient % 2 = 0)) :
    magnitude.IsBestOnGrid (magnitude.above exponent) := by
  have order := value_below_lt_above magnitude exponent
  apply isBestOnGrid_of readsBack
  rintro other (rfl | rfl) otherReadsBack
  · have ⟨nearer, even⟩ := better otherReadsBack
    exact ⟨(abs_right_le_iff order _).mpr nearer,
      fun isTie => .inr (even ((abs_eq_abs_iff_middle order _).mp isTie.symm))⟩
  · exact ⟨le_refl _, fun _ => .inl rfl⟩

theorem onGrid?_toEven (magnitude : Magnitude) (exponent : Int) :
    magnitude.onGrid? .toEven exponent =
      if (magnitude.below exponent).magnitude = magnitude then
        if (magnitude.above exponent).magnitude = magnitude then
          if magnitude.doubledRemainder exponent < gridDenominator exponent then
            some (magnitude.below exponent)
          else if gridDenominator exponent < magnitude.doubledRemainder exponent then
            some (magnitude.above exponent)
          else if (magnitude.below exponent).coefficient % 2 = 0 then
            some (magnitude.below exponent)
          else some (magnitude.above exponent)
        else some (magnitude.below exponent)
      else if (magnitude.above exponent).magnitude = magnitude then
        some (magnitude.above exponent)
      else none :=
  rfl

/-- What is found on a grid is best there. -/
theorem isBestOnGrid_of_onGrid? (found : magnitude.onGrid? .toEven exponent = some decimal) :
    decimal.exponent = exponent ∧ magnitude.IsBestOnGrid decimal := by
  simp only [onGrid?_toEven, ← two_mul_value_lt_iff, ← lt_two_mul_value_iff] at found
  split at found
  · rename_i belowReads
    have belowReads := Decimal.magnitude_eq_iff.mp belowReads
    split at found
    · rename_i aboveReads
      have aboveReads := Decimal.magnitude_eq_iff.mp aboveReads
      split at found
      · rename_i less
        cases found
        exact ⟨rfl, isBestOnGrid_below belowReads fun _ =>
          ⟨less.le, fun isTie => absurd isTie less.ne⟩⟩
      · rename_i notLess
        split at found
        · rename_i more
          cases found
          exact ⟨rfl, isBestOnGrid_above aboveReads fun _ =>
            ⟨more.le, fun isTie => absurd isTie more.ne'⟩⟩
        · rename_i notMore
          split at found
          · rename_i isEven
            cases found
            exact ⟨rfl, isBestOnGrid_below belowReads fun _ =>
              ⟨not_lt.mp notMore, fun _ => isEven⟩⟩
          · rename_i isOdd
            cases found
            exact ⟨rfl, isBestOnGrid_above aboveReads fun _ =>
              ⟨not_lt.mp notLess, fun _ => Nat.succ_mod_two_eq_zero_iff.mpr
                (Nat.mod_two_ne_zero.mp isOdd)⟩⟩
    · rename_i notAbove
      cases found
      exact ⟨rfl, isBestOnGrid_below belowReads fun aboveReads =>
        absurd (Decimal.magnitude_eq_iff.mpr aboveReads) notAbove⟩
  · rename_i notBelow
    split at found
    · rename_i aboveReads
      cases found
      exact ⟨rfl, isBestOnGrid_above (Decimal.magnitude_eq_iff.mp aboveReads) fun belowReads =>
        absurd (Decimal.magnitude_eq_iff.mpr belowReads) notBelow⟩
    · cases found

theorem not_isNearest_of_onGrid? (notFound : magnitude.onGrid? .toEven exponent = none)
    (isPoint : decimal.exponent = exponent) : ¬magnitude.IsNearest decimal.value := by
  intro readsBack
  rw [onGrid?_toEven] at notFound
  rcases isNearest_below_or_above readsBack isPoint with ⟨_, nearest⟩ | ⟨_, nearest⟩
  · rw [if_pos (Decimal.magnitude_eq_iff.mpr nearest)] at notFound
    repeat' split at notFound
    all_goals cases notFound
  · simp only [if_pos (Decimal.magnitude_eq_iff.mpr nearest)] at notFound
    repeat' split at notFound
    all_goals cases notFound

end Grid

end Magnitude

end MetricWatch
