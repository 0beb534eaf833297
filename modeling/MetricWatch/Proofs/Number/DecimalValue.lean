import Mathlib.Algebra.Order.Field.Power
import MetricWatch.Proofs.Number.Nearest

namespace MetricWatch

/-! Decimals as exact numbers. The first digit tells the order of magnitude. -/

theorem decimalDigits_length_pos (value : Nat) : 0 < (decimalDigits value).length :=
  List.length_pos_iff.mpr Nat.toDigits_ne_nil

theorem lt_pow_iff {value places : Nat} (positive : 0 < places) :
    value < 10 ^ places ↔ (decimalDigits value).length ≤ places :=
  (Nat.length_toDigits_le_iff (by decide) positive).symm

theorem pow_le_iff {value places : Nat} (positive : 0 < value) :
    10 ^ places ≤ value ↔ places < (decimalDigits value).length := by
  rcases Nat.eq_zero_or_pos places with rfl | hasPlaces
  · exact iff_of_true positive (decimalDigits_length_pos value)
  · rw [← Nat.not_lt, lt_pow_iff hasPlaces, Nat.not_le]

theorem decimalDigits_mul_ten {value : Nat} (positive : 0 < value) :
    decimalDigits (value * 10) = decimalDigits value ++ ['0'] := by
  rw [decimalDigits, Nat.toDigits_of_base_le (by decide) (by omega),
    Nat.mul_div_cancel _ (by decide), Nat.mul_mod_left]
  rfl

theorem decimalDigits_mul_pow {value : Nat} (positive : 0 < value) (count : Nat) :
    decimalDigits (value * 10 ^ count) = decimalDigits value ++ List.replicate count '0' := by
  induction count with
  | zero => rw [Nat.pow_zero, Nat.mul_one, List.replicate_zero, List.append_nil]
  | succ count induction =>
      rw [Nat.pow_succ, ← Nat.mul_assoc,
        decimalDigits_mul_ten (Nat.mul_pos positive (Nat.pow_pos (by decide))), induction,
        List.append_assoc, List.replicate_succ']

theorem digitsValue_append (left right : List Char) :
    digitsValue (left ++ right) = digitsValue left * 10 ^ right.length + digitsValue right := by
  have folded : ∀ (digits : List Char) (start : Nat),
      digits.foldl (fun value digit => 10 * value + digitValue digit) start =
        start * 10 ^ digits.length + digitsValue digits := by
    intro digits
    induction digits with
    | nil => simp [digitsValue]
    | cons digit digits induction =>
        intro start
        rw [digitsValue, List.foldl_cons, List.foldl_cons, induction, induction (10 * 0 + _),
          List.length_cons, Nat.pow_succ]
        ring
  rw [digitsValue, List.foldl_append, folded]
  rfl

theorem digitsValue_concat (digits : List Char) (digit : Char) :
    digitsValue (digits ++ [digit]) = 10 * digitsValue digits + digitValue digit := by
  rw [digitsValue, List.foldl_append]
  rfl

theorem digitsValue_le_append (front back : List Char) :
    digitsValue front ≤ digitsValue (front ++ back) := by
  rw [digitsValue_append]
  exact Nat.le_add_right_of_le (Nat.le_mul_of_pos_right _ (Nat.pow_pos (by decide)))

namespace Decimal

def value (decimal : Decimal) : ℚ :=
  decimal.coefficient * 10 ^ decimal.exponent

/-- How many digits the coefficient has. -/
def places (decimal : Decimal) : Nat :=
  (decimalDigits decimal.coefficient).length

variable {decimal : Decimal}

theorem ten_zpow_pos (exponent : Int) : (0 : ℚ) < 10 ^ exponent :=
  zpow_pos (by norm_num) exponent

theorem ten_zpow_natCast (exponent : Nat) :
    (10 : ℚ) ^ (exponent : Int) = (10 ^ exponent : Nat) := by
  rw [zpow_natCast, Nat.cast_pow, Nat.cast_ofNat]

theorem value_nonneg (decimal : Decimal) : 0 ≤ decimal.value :=
  mul_nonneg (Nat.cast_nonneg _) (ten_zpow_pos _).le

theorem value_pos_iff : 0 < decimal.value ↔ 0 < decimal.coefficient := by
  rw [value, mul_pos_iff_of_pos_right (ten_zpow_pos _), Nat.cast_pos]

/-- The power of ten of the first digit is the largest one that is not above the decimal. -/
theorem le_value_iff (positive : 0 < decimal.coefficient) {exponent : Int} :
    10 ^ exponent ≤ decimal.value ↔ exponent ≤ decimal.leadingExponent := by
  have scaled : (10 : ℚ) ^ exponent ≤ decimal.value ↔
      (10 : ℚ) ^ (exponent - decimal.exponent) ≤ decimal.coefficient := by
    rw [zpow_sub₀ (by norm_num), div_le_iff₀ (ten_zpow_pos _), value]
  have digits := decimalDigits_length_pos decimal.coefficient
  rw [scaled, leadingExponent]
  rcases le_or_gt (exponent - decimal.exponent) 0 with notPositive | places
  · have atMostOne : (10 : ℚ) ^ (exponent - decimal.exponent) ≤ 1 :=
      zpow_le_one_of_nonpos₀ (by norm_num) notPositive
    refine iff_of_true (atMostOne.trans ?_) (by omega)
    exact_mod_cast positive
  · have ⟨count, isCount⟩ := Int.eq_ofNat_of_zero_le places.le
    rw [isCount, ten_zpow_natCast, Nat.cast_le, pow_le_iff positive]
    omega

theorem value_lt_iff (positive : 0 < decimal.coefficient) {exponent : Int} :
    decimal.value < 10 ^ exponent ↔ decimal.leadingExponent < exponent := by
  rw [← not_le, le_value_iff positive, not_le]

/-! Different decimals with the same value. -/

variable {other : Decimal}

theorem places_pos (decimal : Decimal) : 0 < decimal.places :=
  decimalDigits_length_pos decimal.coefficient

theorem leadingExponent_eq (decimal : Decimal) :
    decimal.leadingExponent = decimal.exponent + (decimal.places - 1) :=
  rfl

/-- A decimal can be written with any smaller exponent. -/
theorem exists_value_eq {exponent : Int} (finer : exponent ≤ decimal.exponent) :
    ∃ coefficient, (mk coefficient exponent).value = decimal.value := by
  have ⟨count, isCount⟩ := Int.eq_ofNat_of_zero_le (sub_nonneg.mpr finer)
  refine ⟨decimal.coefficient * 10 ^ count, ?_⟩
  have isExponent : decimal.exponent = count + exponent := by omega
  rw [value, value, isExponent, Nat.cast_mul, zpow_add₀ (by norm_num), ten_zpow_natCast]
  ring

theorem leadingExponent_mono (positive : 0 < decimal.coefficient)
    (otherPositive : 0 < other.coefficient) (order : decimal.value ≤ other.value) :
    decimal.leadingExponent ≤ other.leadingExponent :=
  (le_value_iff otherPositive).mp (((le_value_iff positive).mpr (le_refl _)).trans order)

theorem eq_of_exponent_eq (same : decimal.value = other.value)
    (sameExponent : decimal.exponent = other.exponent) : decimal = other := by
  rw [value, value, sameExponent] at same
  have sameCoefficient := Nat.cast_injective (mul_right_cancel₀ (ten_zpow_pos _).ne' same)
  cases decimal
  cases other
  congr

theorem eq_of_value_eq (positive : 0 < decimal.coefficient) (same : decimal.value = other.value)
    (samePlaces : decimal.places = other.places) : decimal = other := by
  have otherPositive := value_pos_iff.mp (same ▸ value_pos_iff.mpr positive)
  have sameLeading := le_antisymm (leadingExponent_mono positive otherPositive same.le)
    (leadingExponent_mono otherPositive positive same.ge)
  rw [leadingExponent_eq, leadingExponent_eq, samePlaces] at sameLeading
  exact eq_of_exponent_eq same (by omega)

/-- A power of ten has one digit. -/
def powerOfTen (exponent : Int) : Decimal :=
  ⟨1, exponent⟩

theorem value_powerOfTen (exponent : Int) : (powerOfTen exponent).value = 10 ^ exponent := by
  rw [value, powerOfTen, Nat.cast_one, one_mul]

theorem places_powerOfTen (exponent : Int) : (powerOfTen exponent).places = 1 := by
  change (decimalDigits 1).length = 1
  decide

/-- Fewer digits and a smaller exponent leave a decimal below a power of ten. -/
theorem value_lt_of_places {exponent : Int} (less : decimal.exponent + decimal.places ≤ exponent) :
    decimal.value < 10 ^ exponent := by
  rcases Nat.eq_zero_or_pos decimal.coefficient with isZero | positive
  · rw [value, isZero, Nat.cast_zero, zero_mul]
    exact ten_zpow_pos _
  · rw [value_lt_iff positive, leadingExponent_eq]
    omega

/-- Below ten steps of its grid a decimal is at most nine of them. -/
theorem value_le_nine (less : decimal.value < 10 * 10 ^ decimal.exponent) :
    decimal.value ≤ 9 * 10 ^ decimal.exponent := by
  have positive := ten_zpow_pos decimal.exponent
  have few : (decimal.coefficient : ℚ) < (10 : Nat) := by
    exact_mod_cast lt_of_mul_lt_mul_right less positive.le
  have atMost : (decimal.coefficient : ℚ) ≤ 9 := by
    exact_mod_cast Nat.le_of_lt_succ (Nat.cast_lt.mp few)
  exact mul_le_mul_of_nonneg_right atMost positive.le

/-- A decimal without trailing zeros has the largest exponent of all with its value. -/
theorem exists_mul_pow (noZero : decimal.coefficient % 10 ≠ 0)
    (same : other.value = decimal.value) :
    ∃ count : Nat, other.coefficient = decimal.coefficient * 10 ^ count ∧
      decimal.exponent = other.exponent + count := by
  rcases le_or_gt other.exponent decimal.exponent with finer | coarser
  · have ⟨count, isCount⟩ := Int.eq_ofNat_of_zero_le (sub_nonneg.mpr finer)
    have isExponent : decimal.exponent = other.exponent + count := by omega
    refine ⟨count, ?_, isExponent⟩
    rw [value, value, isExponent, zpow_add₀ (by norm_num), ten_zpow_natCast, mul_comm (10 ^ _),
      ← mul_assoc] at same
    exact_mod_cast mul_right_cancel₀ (ten_zpow_pos _).ne' same
  · have ⟨count, isCount⟩ := Int.eq_ofNat_of_zero_le (sub_nonneg.mpr (Int.add_one_le_of_lt coarser))
    have isExponent : other.exponent = decimal.exponent + (count + 1 : Nat) := by omega
    rw [value, value, isExponent, zpow_add₀ (by norm_num), ten_zpow_natCast, mul_comm (10 ^ _),
      ← mul_assoc] at same
    have isMultiple : other.coefficient * 10 ^ (count + 1) = decimal.coefficient := by
      exact_mod_cast mul_right_cancel₀ (ten_zpow_pos _).ne' same
    rw [← isMultiple, Nat.pow_succ, ← Nat.mul_assoc, Nat.mul_mod_left] at noZero
    exact absurd rfl noZero

/-! Rounding a decimal. -/

theorem infinity_le_value (positive : 0 < decimal.coefficient) {places : Nat}
    (enough : Magnitude.infinity.units ≤ 10 ^ places * Magnitude.unitsPerOne)
    (large : places ≤ decimal.leadingExponent) :
    Magnitude.infinity.value ≤ decimal.value := by
  refine le_trans ?_ ((le_value_iff positive).mpr large)
  rw [Magnitude.value, ten_zpow_natCast, div_le_iff₀ Magnitude.unitsPerOne_cast_pos]
  exact_mod_cast enough

theorem value_le_halfUnit (positive : 0 < decimal.coefficient) {places : Nat}
    (enough : 2 * Magnitude.unitsPerOne ≤ 10 ^ places)
    (small : decimal.leadingExponent < -places) :
    2 * (decimal.value * Magnitude.unitsPerOne) ≤ 1 := by
  have below := (value_lt_iff positive).mpr small
  have scaled : 2 * (Magnitude.unitsPerOne : ℚ) ≤ 10 ^ (places : Int) := by
    rw [ten_zpow_natCast]
    exact_mod_cast enough
  calc 2 * (decimal.value * Magnitude.unitsPerOne)
      = decimal.value * (2 * Magnitude.unitsPerOne) := by ring
    _ ≤ 10 ^ (-(places : Int)) * 10 ^ (places : Int) :=
        mul_le_mul below.le scaled
          (mul_nonneg zero_le_two Magnitude.unitsPerOne_cast_pos.le) (ten_zpow_pos _).le
    _ = 1 := by rw [← zpow_add₀ (by norm_num), neg_add_cancel, zpow_zero]

/-- Reading a decimal gives the magnitude that is nearest to it. -/
theorem isNearest_magnitude (decimal : Decimal) :
    decimal.magnitude.IsNearest decimal.value := by
  rw [magnitude]
  split
  · rename_i isZero
    rw [value, isZero, Nat.cast_zero, zero_mul, ← Magnitude.value_zero]
    exact Magnitude.isNearest_value _
  · rename_i notZero
    have positive := Nat.pos_of_ne_zero notZero
    split
    · rename_i large
      have enough : Magnitude.infinity.units ≤ 10 ^ 311 * Magnitude.unitsPerOne := by
        decide +kernel
      exact Magnitude.isNearest_infinity (infinity_le_value positive enough (by omega))
    · split
      · rename_i small
        have enough : 2 * Magnitude.unitsPerOne ≤ 10 ^ 330 := by
          decide +kernel
        exact Magnitude.isNearest_zero (value_le_halfUnit positive enough small)
      · split
        · rename_i isWhole
          have ⟨count, isCount⟩ := Int.eq_ofNat_of_zero_le isWhole
          have isValue : decimal.value =
              ((decimal.coefficient * Nat.pow 10 count : Nat) : ℚ) / (1 : Nat) := by
            rw [value, isCount, ten_zpow_natCast, Nat.cast_one, div_one, Nat.cast_mul]
            rfl
          rw [isCount, isValue]
          exact Magnitude.isNearest_nearest Nat.one_pos _
        · rename_i notWhole
          have ⟨count, isCount⟩ := Int.eq_ofNat_of_zero_le (a := -decimal.exponent) (by omega)
          have isExponent : decimal.exponent = -(count : Int) := by omega
          have isValue : decimal.value =
              (decimal.coefficient : ℚ) / ((Nat.pow 10 count : Nat) : ℚ) := by
            rw [value, isExponent, zpow_neg, ten_zpow_natCast, div_eq_mul_inv]
            rfl
          rw [isCount, isValue]
          exact Magnitude.isNearest_nearest (Nat.pow_pos (by decide)) _

theorem magnitude_eq_iff {magnitude : Magnitude} :
    decimal.magnitude = magnitude ↔ magnitude.IsNearest decimal.value := by
  constructor
  · intro isMagnitude
    rw [← isMagnitude]
    exact isNearest_magnitude decimal
  · exact (isNearest_magnitude decimal).unique

end Decimal

end MetricWatch
