import MetricWatch.Number.Decimal

namespace MetricWatch

/-! Whole numbers in decimal digits. -/

theorem digitsValue_decimalDigits (value : Nat) : digitsValue (decimalDigits value) = value :=
  Nat.ofDigitChars_ten_toDigits

theorem isDecimalDigit_of_mem {value : Nat} {digit : Char} (member : digit ∈ decimalDigits value) :
    isDecimalDigit digit = true :=
  Nat.isDigit_of_mem_toDigits (by decide) (by decide) member

/-- A positive number does not begin with a zero. -/
theorem head?_decimalDigits_ne {value : Nat} (positive : 0 < value) :
    (decimalDigits value).head? ≠ some '0' := by
  induction value using Nat.strongRecOn with
  | ind value induction =>
      by_cases isDigit : value < 10
      · have every : ∀ digit : Fin 10, 0 < digit.val → digit.val.digitChar ≠ '0' := by decide
        rw [decimalDigits, Nat.toDigits_of_lt_base isDigit]
        intro isZero
        exact every ⟨value, isDigit⟩ positive (Option.some.inj isZero)
      · have large : 10 ≤ value := Nat.not_lt.mp isDigit
        have shorter := induction (value / 10) (by omega) (by omega)
        rw [decimalDigits, Nat.toDigits_of_base_le (by decide) large]
        rwa [List.head?_append, Option.or_of_isSome]
        exact List.isSome_head?.mpr Nat.toDigits_ne_nil

/-! Whole numbers below 2^53, which is twice the steps of a binade, are doubles. -/

namespace Magnitude

theorem shiftLeft_eq_mul (value places : Nat) : value <<< places = value * 1 <<< places := by
  rw [Nat.shiftLeft_eq, Nat.one_shiftLeft]

theorem log2_shiftLeft {value : Nat} (positive : 0 < value) (places : Nat) :
    (value <<< places).log2 = value.log2 + places := by
  have isPositive : 0 < value <<< places := Nat.shiftLeft_pos_iff.mpr positive
  rw [Nat.log2_eq_iff (Nat.ne_of_gt isPositive), Nat.shiftLeft_eq, Nat.add_right_comm,
    Nat.pow_add, Nat.pow_add]
  exact ⟨Nat.mul_le_mul_right _ (Nat.log2_self_le (Nat.ne_of_gt positive)),
    Nat.mul_lt_mul_of_pos_right Nat.lt_log2_self (Nat.two_pow_pos places)⟩

theorem unitsPerOne_pos : 0 < unitsPerOne :=
  Nat.shiftLeft_pos_iff.mpr Nat.one_pos

/-- A rank from the first binade on, taken apart. -/
theorem units_of_rank {magnitude : Magnitude} {doublings steps : Nat}
    (rank : magnitude.rank = doublings * stepsPerBinade + steps)
    (least : stepsPerBinade ≤ steps) (most : steps < 2 * stepsPerBinade) :
    magnitude.units = steps <<< doublings := by
  have scale : magnitude.scale = doublings := by
    have one : steps / stepsPerBinade = 1 := Nat.div_eq_of_lt_le (by omega) (by omega)
    have positive : 0 < stepsPerBinade := by decide
    rw [Magnitude.scale, rank, Nat.add_comm, Nat.add_mul_div_right _ _ positive, one,
      Nat.add_sub_cancel_left]
  rw [units, significand, scale, rank, Nat.add_sub_cancel_left]

section Nearest

variable {value : Nat} (positive : 0 < value) (small : value < 2 * stepsPerBinade)

include positive small

theorem log2_le : value.log2 ≤ 52 :=
  Nat.le_of_lt_succ ((Nat.log2_lt (Nat.ne_of_gt positive)).mpr small)

/-- In the binade of a whole number, a power of two steps make one. -/
theorem steps_shiftLeft :
    (value <<< (52 - value.log2)) <<< (value.log2 + 1022) = value * unitsPerOne := by
  have atMost := log2_le positive small
  have places : 52 - value.log2 + (value.log2 + 1022) = 1074 := by omega
  rw [← Nat.shiftLeft_add, places, shiftLeft_eq_mul, unitsPerOne]

theorem steps_bounds : stepsPerBinade ≤ value <<< (52 - value.log2) ∧
    value <<< (52 - value.log2) < 2 * stepsPerBinade := by
  have isPositive : 0 < value <<< (52 - value.log2) := Nat.shiftLeft_pos_iff.mpr positive
  have log2 : (value <<< (52 - value.log2)).log2 = 52 := by
    rw [log2_shiftLeft positive, Nat.add_sub_cancel' (log2_le positive small)]
  exact (Nat.log2_eq_iff (Nat.ne_of_gt isPositive)).mp log2

theorem rank_bounded : (value.log2 + 1022) * stepsPerBinade + value <<< (52 - value.log2) <
    infinityRank := by
  have atMost := log2_le positive small
  have below := (steps_bounds positive small).2
  calc (value.log2 + 1022) * stepsPerBinade + value <<< (52 - value.log2)
      < (value.log2 + 1022) * stepsPerBinade + 2 * stepsPerBinade :=
        Nat.add_lt_add_left below _
    _ = (value.log2 + 1024) * stepsPerBinade := by rw [← Nat.add_mul]
    _ ≤ 2047 * stepsPerBinade := Nat.mul_le_mul_right _ (by omega)

theorem rank_nearest {divisor : Nat} (divides : 0 < divisor) :
    (nearest (value * divisor) divisor).rank =
      (value.log2 + 1022) * stepsPerBinade + value <<< (52 - value.log2) := by
  have doublings : (value * divisor * unitsPerOne / divisor).log2 - 52 = value.log2 + 1022 := by
    rw [Nat.mul_right_comm, Nat.mul_div_cancel _ divides, unitsPerOne, ← shiftLeft_eq_mul,
      log2_shiftLeft positive]
    omega
  have exact : value * divisor * unitsPerOne =
      value <<< (52 - value.log2) * divisor <<< (value.log2 + 1022) := by
    rw [Nat.mul_right_comm, ← steps_shiftLeft positive small, shiftLeft_eq_mul _ (_ + _),
      shiftLeft_eq_mul divisor, Nat.mul_assoc, Nat.mul_comm divisor]
  have steps : nearestQuotient (value * divisor * unitsPerOne)
      (divisor <<< (value.log2 + 1022)) = value <<< (52 - value.log2) := by
    rw [exact]
    exact nearestQuotient_mul _ (Nat.shiftLeft_pos_iff.mpr divides)
  simp only [nearest, doublings, steps]
  exact Nat.min_eq_left (Nat.le_of_lt (rank_bounded positive small))

end Nearest

theorem nearest_zero {divisor : Nat} (divides : 0 < divisor) : nearest 0 divisor = zero := by
  simp [nearest, zero, nearestQuotient, divides]

section Whole

variable {value divisor : Nat} (small : value < 2 * stepsPerBinade) (divides : 0 < divisor)

include small divides

/-- A quotient that is a whole number is met exactly. -/
theorem units_nearest : (nearest (value * divisor) divisor).units = value * unitsPerOne := by
  rcases Nat.eq_zero_or_pos value with rfl | positive
  · rw [Nat.zero_mul, nearest_zero divides, Nat.zero_mul]
    rfl
  · have bounds := steps_bounds positive small
    rw [units_of_rank (rank_nearest positive small divides) bounds.1 bounds.2,
      steps_shiftLeft positive small]

theorem isInfinite_nearest : (nearest (value * divisor) divisor).isInfinite = false := by
  apply beq_false_of_ne
  rcases Nat.eq_zero_or_pos value with rfl | positive
  · rw [Nat.zero_mul, nearest_zero divides]
    decide
  · rw [rank_nearest positive small divides]
    exact Nat.ne_of_lt (rank_bounded positive small)

end Whole

end Magnitude

namespace Binary64

/-- A product of whole numbers is exact if it is a double. -/
theorem truncated?_timesNat_ofInt {value : Int} {factor : Nat} (positive : 0 < factor)
    (small : value.natAbs * factor < 2 * Magnitude.stepsPerBinade) :
    ((ofInt value).timesNat factor).truncated? = some (value * factor) := by
  have smallValue : value.natAbs < 2 * Magnitude.stepsPerBinade :=
    Nat.lt_of_le_of_lt (Nat.le_mul_of_pos_right _ positive) small
  have units : (Magnitude.ofNat value.natAbs).units = value.natAbs * Magnitude.unitsPerOne := by
    have whole := Magnitude.units_nearest smallValue Nat.one_pos
    rwa [Nat.mul_one] at whole
  have product : (Magnitude.ofNat value.natAbs).timesNat factor =
      Magnitude.nearest (value.natAbs * factor * Magnitude.unitsPerOne)
        Magnitude.unitsPerOne := by
    rw [Magnitude.timesNat, units, Nat.mul_right_comm]
  have whole : ((Magnitude.ofNat value.natAbs).timesNat factor).wholePart =
      value.natAbs * factor := by
    rw [product, Magnitude.wholePart,
      Magnitude.units_nearest small Magnitude.unitsPerOne_pos,
      Nat.mul_div_cancel _ Magnitude.unitsPerOne_pos]
  have finite : ((Magnitude.ofNat value.natAbs).timesNat factor).isInfinite = false := by
    rw [product]
    exact Magnitude.isInfinite_nearest small Magnitude.unitsPerOne_pos
  rw [ofInt, timesNat, truncated?, finite, whole]
  by_cases negative : value < 0
  · have size : (value.natAbs : Int) = -value := Int.ofNat_natAbs_of_nonpos (by omega)
    have signed : -((value.natAbs * factor : Nat) : Int) = value * factor := by
      rw [Int.natCast_mul, size, Int.neg_mul, Int.neg_neg]
    simp only [negative, decide_true, if_true, Bool.false_eq_true, if_false, signed]
  · have size : (value.natAbs : Int) = value := Int.natAbs_of_nonneg (by omega)
    have unsigned : ((value.natAbs * factor : Nat) : Int) = value * factor := by
      rw [Int.natCast_mul, size]
    simp only [negative, decide_false, Bool.false_eq_true, if_false, unsigned]

end Binary64

end MetricWatch
