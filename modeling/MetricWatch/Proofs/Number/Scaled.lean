import MetricWatch.Number.Scaled
import MetricWatch.Proofs.Number.Shortest
import MetricWatch.Proofs.Number.Signed

namespace MetricWatch.Magnitude

/-! Scaling by powers of ten, step by step. A size is multiplied or divided once, or divided again
and again, and every outcome is rounded. Only where nothing is lost on the way is the last one
nearest to the scaled number. -/

/-- What a size comes to that is scaled by a power of ten. A power beyond the last one is divided
by in turns, and never multiplied with. -/
inductive Scales : Magnitude → Int → Magnitude → Prop
  | up {size power product : Magnitude} {exponent : Nat} (atHand : exponent ≤ 308)
      (isPower : power.IsNearest (10 ^ exponent : Nat))
      (isProduct : product.IsNearest (size.value * power.value)) (finite : product ≠ infinity) :
      Scales size exponent product
  | down {size power quotient : Magnitude} {exponent : Nat} (positive : 0 < exponent)
      (atHand : exponent ≤ 308) (isPower : power.IsNearest (10 ^ exponent : Nat))
      (isQuotient : quotient.IsNearest (size.value / power.value)) :
      Scales size (-exponent) quotient
  | turn {size power quotient result : Magnitude} {exponent : Nat} (positive : 0 < exponent)
      (isPower : power.IsNearest (10 ^ 308 : Nat))
      (isQuotient : quotient.IsNearest (size.value / power.value))
      (goesOn : Scales quotient (-exponent) result) : Scales size (-(308 + exponent : Nat)) result
  | zero {exponent : Int} : Scales zero exponent zero

theorem isNearest_times (left right : Magnitude) :
    (left.times right).IsNearest (left.value * right.value) := by
  have isNearest := isNearest_nearest (Nat.mul_pos unitsPerOne_pos unitsPerOne_pos)
    (left.units * right.units)
  rwa [Nat.cast_mul, Nat.cast_mul, mul_div_mul_comm] at isNearest

theorem isNearest_dividedBy (left : Magnitude) {right : Magnitude} (notZero : right ≠ zero) :
    (left.dividedBy right).IsNearest (left.value / right.value) := by
  have positive : 0 < right.units := by
    have isPositive := value_pos_iff.mpr notZero
    rw [value, div_pos_iff_of_pos_right unitsPerOne_cast_pos] at isPositive
    exact Nat.cast_pos.mp isPositive
  have isNearest := isNearest_nearest positive left.units
  rwa [← div_div_div_cancel_right₀ unitsPerOne_cast_pos.ne'] at isNearest

theorem isNearest_powerOfTen (exponent : Nat) :
    (powerOfTen exponent).IsNearest (10 ^ exponent : Nat) :=
  isNearest_ofNat _

theorem powerOfTen_ne_zero (exponent : Nat) : powerOfTen exponent ≠ zero :=
  (isNearest_powerOfTen exponent).ne_zero (Nat.pow_pos (by decide))

/-! Zero stays zero, so that it does not matter how soon it is noticed. -/

theorem zero_times (right : Magnitude) : zero.times right = zero := by
  have isNearest := isNearest_times zero right
  rw [value_zero, zero_mul] at isNearest
  exact value_injective (isNearest.value_eq_zero.trans value_zero.symm)

theorem zero_dividedBy {right : Magnitude} (notZero : right ≠ zero) :
    zero.dividedBy right = zero := by
  have isNearest := isNearest_dividedBy zero notZero
  rw [value_zero, zero_div] at isNearest
  exact value_injective (isNearest.value_eq_zero.trans value_zero.symm)

theorem zero_shrink (turns : Nat) : zero.shrink turns = zero := by
  cases turns <;> rfl

theorem shrink_succ (size : Magnitude) (turns : Nat) :
    size.shrink (turns + 1) = (size.dividedBy (powerOfTen 308)).shrink turns := by
  rw [shrink]
  split
  · rename_i isZero
    rw [isZero_iff.mp isZero, zero_dividedBy (powerOfTen_ne_zero 308), zero_shrink]
  · rfl

theorem scaleDown_atHand (size : Magnitude) {exponent : Nat} (positive : 0 < exponent)
    (atHand : exponent ≤ 308) :
    size.scaleDown exponent = size.dividedBy (powerOfTen exponent) := by
  have noTurns : (exponent - 1) / largestPower = 0 := Nat.div_eq_of_lt (by rw [largestPower]; omega)
  rw [scaleDown, noTurns]
  rfl

theorem scaleDown_turn (size : Magnitude) {exponent : Nat} (positive : 0 < exponent) :
    size.scaleDown (308 + exponent) = (size.dividedBy (powerOfTen 308)).scaleDown exponent := by
  have oneMore : (308 + exponent - 1) / largestPower = (exponent - 1) / largestPower + 1 := by
    rw [largestPower]
    omega
  have remaining : 308 + exponent - ((exponent - 1) / largestPower + 1) * largestPower =
      exponent - (exponent - 1) / largestPower * largestPower := by
    rw [largestPower]
    omega
  rw [scaleDown, oneMore, shrink_succ, remaining]
  rfl

/-! A size is scaled as it should be. -/

theorem scale?_natCast (size : Magnitude) (exponent : Nat) :
    size.scale? exponent = size.scaleUp? exponent := by
  rw [scale?, if_pos (Int.natCast_nonneg exponent), Int.toNat_natCast]

theorem scale?_neg (size : Magnitude) {exponent : Nat} (positive : 0 < exponent) :
    size.scale? (-exponent) = some (size.scaleDown exponent) := by
  rw [scale?, if_neg (by omega), Int.neg_neg, Int.toNat_natCast]

theorem zero_scale? (exponent : Int) : zero.scale? exponent = some zero := by
  rw [scale?]
  split
  · rw [scaleUp?, zero_times]
    split <;> rfl
  · rw [scaleDown, zero_shrink, zero_dividedBy (powerOfTen_ne_zero _)]

theorem scales_scaleDown (exponent : Nat) (positive : 0 < exponent) :
    ∀ size : Magnitude, Scales size (-exponent) (size.scaleDown exponent) := by
  induction exponent using Nat.strongRecOn with
  | ind exponent induction =>
      intro size
      rcases Nat.lt_or_ge 308 exponent with beyond | atHand
      · obtain ⟨further, rfl⟩ := Nat.exists_eq_add_of_le beyond.le
        have goesOn := induction further (by omega) (by omega) (size.dividedBy (powerOfTen 308))
        rw [scaleDown_turn size (by omega)]
        exact .turn (by omega) (isNearest_powerOfTen 308)
          (isNearest_dividedBy size (powerOfTen_ne_zero 308)) goesOn
      · rw [scaleDown_atHand size positive atHand]
        exact .down positive atHand (isNearest_powerOfTen exponent)
          (isNearest_dividedBy size (powerOfTen_ne_zero exponent))

theorem scales_of_scaleUp? {size product : Magnitude} {exponent : Nat}
    (isScaled : size.scaleUp? exponent = some product) : Scales size exponent product := by
  rw [scaleUp?] at isScaled
  split at isScaled
  · rename_i atHand
    dsimp only at isScaled
    split at isScaled
    · cases isScaled
    · rename_i finite
      cases isScaled
      exact .up atHand (isNearest_powerOfTen exponent) (isNearest_times size _)
        (isInfinite_iff.not.mp finite)
  · split at isScaled
    · rename_i isZero
      cases isScaled
      rw [isZero_iff.mp isZero]
      exact .zero
    · cases isScaled

theorem Scales.scale?_eq {size result : Magnitude} {exponent : Int}
    (scales : Scales size exponent result) : size.scale? exponent = some result := by
  induction scales with
  | @up size power product exponent atHand isPower isProduct finite =>
      rw [isPower.unique (isNearest_powerOfTen exponent)] at isProduct
      have isTimes := (isNearest_times size (powerOfTen exponent)).unique isProduct
      rw [scale?_natCast, scaleUp?, if_pos (show exponent ≤ largestPower from atHand), isTimes]
      exact if_neg (isInfinite_iff.not.mpr finite)
  | @down size power quotient exponent positive atHand isPower isQuotient =>
      rw [isPower.unique (isNearest_powerOfTen exponent)] at isQuotient
      have isDivided := (isNearest_dividedBy size (powerOfTen_ne_zero exponent)).unique isQuotient
      rw [scale?_neg size positive, scaleDown_atHand size positive atHand, isDivided]
  | @turn size power quotient result exponent positive isPower isQuotient goesOn induction =>
      rw [isPower.unique (isNearest_powerOfTen 308)] at isQuotient
      have isDivided := (isNearest_dividedBy size (powerOfTen_ne_zero 308)).unique isQuotient
      rw [scale?_neg size (by omega), scaleDown_turn size positive, isDivided,
        ← scale?_neg _ positive, induction]
  | zero => exact zero_scale? _

theorem scale?_eq_some_iff {size result : Magnitude} {exponent : Int} :
    size.scale? exponent = some result ↔ Scales size exponent result := by
  constructor
  · intro isScaled
    rcases lt_or_ge exponent 0 with negative | notNegative
    · obtain ⟨down, rfl⟩ := Int.eq_negSucc_of_lt_zero negative
      rw [Int.negSucc_eq, ← Int.natCast_succ] at isScaled ⊢
      rw [scale?_neg size down.succ_pos] at isScaled
      cases isScaled
      exact scales_scaleDown _ down.succ_pos size
    · obtain ⟨up, rfl⟩ := Int.eq_ofNat_of_zero_le notNegative
      rw [scale?_natCast] at isScaled
      exact scales_of_scaleUp? isScaled
  · exact Scales.scale?_eq

/-! Nothing becomes infinite. -/

theorem IsNearest.ne_infinity_of_le {left right : Magnitude} {leftValue rightValue : ℚ}
    (isLeft : left.IsNearest leftValue) (isRight : right.IsNearest rightValue)
    (notMore : leftValue ≤ rightValue) (finite : right ≠ infinity) : left ≠ infinity := by
  rintro rfl
  have order := value_le_value_iff.mp (isLeft.mono isRight notMore)
  exact finite (value_injective (le_antisymm (value_le_value_iff.mpr right.bounded)
    (value_le_value_iff.mpr order)))

theorem IsNearest.quotient_ne_infinity {size power quotient : Magnitude} {exponent : Nat}
    (isQuotient : quotient.IsNearest (size.value / power.value))
    (isPower : power.IsNearest (10 ^ exponent : Nat)) (finite : size ≠ infinity) :
    quotient ≠ infinity := by
  have large := isPower.one_le_value (Nat.pow_pos (by decide))
  exact isQuotient.ne_infinity_of_le size.isNearest_value
    (div_le_self size.value_nonneg large) finite

theorem Scales.ne_infinity {size result : Magnitude} {exponent : Int}
    (scales : Scales size exponent result) (finite : size ≠ infinity) : result ≠ infinity := by
  induction scales with
  | up _ _ _ finiteProduct => exact finiteProduct
  | down _ _ isPower isQuotient => exact isQuotient.quotient_ne_infinity isPower finite
  | turn _ isPower isQuotient _ induction =>
      exact induction (isQuotient.quotient_ne_infinity isPower finite)
  | zero => exact finite

/-- A whole number below 2^53 and a power of ten up to 10^22 are doubles themselves, so that there
is only one rounding. -/
theorem Scales.isNearest_of_exact {significand : Nat} {size result : Magnitude} {exponent : Int}
    (scales : Scales size exponent result) (isSize : size.IsNearest significand)
    (small : significand < 2 * stepsPerBinade) (near : exponent.natAbs ≤ 22) :
    result.IsNearest (significand * 10 ^ exponent) := by
  have isValue : size.value = significand := by
    rw [isSize.unique (isNearest_ofNat significand), value_ofNat small]
  have power_eq : ∀ {power : Magnitude} {exponent : Nat}, exponent ≤ 22 →
      power.IsNearest (10 ^ exponent : Nat) → power.value = 10 ^ (exponent : Int) := by
    intro power exponent small isPower
    rw [isPower.unique (isNearest_ofNat _), value_ofNat_ten_pow (by omega)]
  cases scales with
  | up _ isPower isProduct =>
      rwa [isValue, power_eq (by omega) isPower] at isProduct
  | down _ _ isPower isQuotient =>
      rwa [isValue, power_eq (by omega) isPower, div_eq_mul_inv, ← zpow_neg] at isQuotient
  | turn => omega
  | zero =>
      rw [← isValue, value_zero, zero_mul, ← value_zero]
      exact isNearest_value _

end MetricWatch.Magnitude
