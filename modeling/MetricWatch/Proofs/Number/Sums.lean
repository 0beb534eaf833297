import MetricWatch.Proofs.Number.Shortest

namespace MetricWatch

/-! Sums and quotients of doubles, and rounding what comes of them to whole numbers. -/

/-- A whole number that is within a half of a number, and an even one if it is a half away. -/
structure IsNearestWhole (count : Nat) (number : ℚ) : Prop where
  near : 2 * |(count : ℚ) - number| ≤ 1
  even : 2 * |(count : ℚ) - number| = 1 → count % 2 = 0

theorem isNearestWhole_nearestQuotient (numerator : Nat) {denominator : Nat}
    (positive : 0 < denominator) :
    IsNearestWhole (nearestQuotient numerator denominator) (numerator / denominator) := by
  have ⟨notAbove, evenBelow⟩ := two_mul_le_nearestQuotient numerator positive
  have ⟨notBelow, evenAbove⟩ := nearestQuotient_le_two_mul numerator positive
  generalize nearestQuotient numerator denominator = count at *
  have divides : (0 : ℚ) < denominator := Nat.cast_pos.mpr positive
  have above : 2 * ((numerator : ℚ) / denominator) ≤ 2 * count + 1 := by
    rw [← mul_div_assoc, div_le_iff₀ divides]
    exact_mod_cast notAbove
  have below : 2 * (count : ℚ) ≤ 2 * (numerator / denominator) + 1 := by
    rw [← mul_div_assoc, ← sub_le_iff_le_add, le_div_iff₀ divides, sub_mul, one_mul,
      sub_le_iff_le_add]
    exact_mod_cast notBelow
  constructor
  case near =>
    rw [← abs_two, ← abs_mul, abs_le]
    constructor <;> linarith
  case even =>
    intro isHalf
    rw [← abs_two, ← abs_mul, abs_eq zero_le_one] at isHalf
    rcases isHalf with isAbove | isBelow
    · have tie : 2 * (count : ℚ) = 2 * (numerator / denominator) + 1 := by linarith
      rw [← mul_div_assoc, ← sub_eq_iff_eq_add, eq_div_iff divides.ne', sub_mul, one_mul,
        sub_eq_iff_eq_add] at tie
      exact evenAbove (by exact_mod_cast tie)
    · have tie : 2 * ((numerator : ℚ) / denominator) = 2 * count + 1 := by linarith
      rw [← mul_div_assoc, div_eq_iff divides.ne'] at tie
      exact evenBelow (by exact_mod_cast tie)

/-- Rounding to whole numbers keeps the order. -/
theorem IsNearestWhole.mono {count otherCount : Nat} {number other : ℚ}
    (isNearest : IsNearestWhole count number) (otherNearest : IsNearestWhole otherCount other)
    (order : number ≤ other) : count ≤ otherCount := by
  by_contra greater
  rw [not_le] at greater
  have next : (otherCount : ℚ) + 1 ≤ count := by exact_mod_cast greater
  have distance := le_abs_self ((count : ℚ) - number)
  have otherDistance := neg_le_abs ((otherCount : ℚ) - other)
  have near := isNearest.near
  have otherNear := otherNearest.near
  -- Both numbers are the middle between the two counts, and neighbours are not both even.
  have even := isNearest.even (by linarith)
  have otherEven := otherNearest.even (by linarith)
  have isNext : count = otherCount + 1 := by
    have notMore : (count : ℚ) ≤ otherCount + 1 := by linarith
    exact le_antisymm (by exact_mod_cast notMore) greater
  omega

namespace Magnitude

theorem isNearest_plus (left right : Magnitude) :
    (left.plus right).IsNearest (left.value + right.value) := by
  have isNearest := isNearest_nearest unitsPerOne_pos (left.units + right.units)
  rwa [Nat.cast_add, add_div] at isNearest

theorem isNearest_divNat (magnitude : Magnitude) {divisor : Nat} (positive : 0 < divisor) :
    (magnitude.divNat divisor).IsNearest (magnitude.value / divisor) := by
  have isNearest := isNearest_nearest (Nat.mul_pos unitsPerOne_pos positive) magnitude.units
  rwa [Nat.cast_mul, ← div_div] at isNearest

/-- From 2^53 on the next magnitude is further away than one. -/
theorem unitsAt_add_le_of_large {magnitude : Magnitude}
    (large : (2 * stepsPerBinade : Nat) ≤ magnitude.value) :
    unitsAt magnitude.rank + 2 * unitsPerOne ≤ unitsAt (magnitude.rank + 1) := by
  obtain ⟨doublings, steps, isRank, isUnits, least, most⟩ := exists_units_eq magnitude
  rw [value, le_div_iff₀ unitsPerOne_cast_pos] at large
  have large : 2 * stepsPerBinade * unitsPerOne ≤ steps * 2 ^ doublings := by
    rw [← isUnits]
    exact_mod_cast large
  rw [isRank, unitsAt_succ_eq least most]
  apply Nat.add_le_add_left
  obtain ⟨places, isPower⟩ := exists_unitsPerOne_eq
  rw [isPower] at large ⊢
  have more : 2 ^ places < 2 ^ doublings := by
    by_contra notMore
    rw [not_lt] at notMore
    have small : steps * 2 ^ doublings < 2 * stepsPerBinade * 2 ^ places :=
      Nat.mul_lt_mul_of_lt_of_le most notMore (by positivity)
    exact absurd large (Nat.not_le.mpr small)
  rw [← Nat.pow_succ']
  exact Nat.pow_le_pow_right Nat.two_pos ((Nat.pow_lt_pow_iff_right (by decide)).mp more)

/-- Less than one is lost when it is added to 2^53 or more. -/
theorem isNearest_add_of_large {magnitude : Magnitude} {excess : ℚ}
    (large : (2 * stepsPerBinade : Nat) ≤ magnitude.value) (notNegative : 0 ≤ excess)
    (less : excess < 1) : magnitude.IsNearest (magnitude.value + excess) := by
  have positive := unitsPerOne_cast_pos
  have scaled : (magnitude.value + excess) * unitsPerOne =
      unitsAt magnitude.rank + excess * unitsPerOne := by
    rw [add_mul, value, div_mul_cancel₀ _ positive.ne', unitsAt_rank]
  have few : excess * unitsPerOne < unitsPerOne := mul_lt_of_lt_one_left positive less
  have notBelow : 0 ≤ excess * unitsPerOne := mul_nonneg notNegative positive.le
  apply isNearest_of_neighbours
  · have gap : (unitsAt magnitude.rank + 2 * unitsPerOne : ℚ) ≤ unitsAt (magnitude.rank + 1) := by
      exact_mod_cast unitsAt_add_le_of_large large
    rw [scaled]
    exact ⟨by linarith, fun isTie => absurd isTie (by intro; linarith)⟩
  · intro rank isPrevious
    have below : (unitsAt rank : ℚ) < unitsAt magnitude.rank :=
      Nat.cast_lt.mpr (unitsAt_strictMono (isPrevious ▸ Nat.lt_succ_self rank))
    rw [scaled]
    exact ⟨by linarith, fun isTie => absurd isTie (by intro; linarith)⟩

end Magnitude

end MetricWatch
