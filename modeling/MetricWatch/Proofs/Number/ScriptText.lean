import MetricWatch.Number.DecimalStyle
import MetricWatch.Proofs.Number.Shortest

namespace MetricWatch

/-! The text that JavaScript's `String` gives for a number: the digits of its shortest decimal,
with the point behind the first `point` of them. A minus in front of zero is dropped. -/

def scriptDigits (digits : List Char) (point : Int) : List Char :=
  if digits.length ≤ point ∧ point ≤ 21 then
    digits ++ List.replicate (point - digits.length).toNat '0'
  else if 0 < point ∧ point ≤ 21 then
    digits.take point.toNat ++ '.' :: digits.drop point.toNat
  else if -6 < point ∧ point ≤ 0 then
    '0' :: '.' :: (List.replicate (-point).toNat '0' ++ digits)
  else
    digits.take 1 ++ (if digits.length = 1 then [] else '.' :: digits.drop 1) ++
      'e' :: (if point ≤ 0 then '-' else '+') :: decimalDigits (point - 1).natAbs

example : scriptDigits ['1', '2'] (-5) = "0.0000012".toList := by decide

example : scriptDigits ['1', '2'] 22 = "1.2e+21".toList := by decide

def signText (negative : Bool) : List Char :=
  if negative then ['-'] else []

inductive IsScriptText : Binary64 → List Char → Prop
  | zero {negative : Bool} : IsScriptText (.number negative .zero) ['0']
  | infinity {negative : Bool} :
      IsScriptText (.number negative .infinity) (signText negative ++ "Infinity".toList)
  | digits {negative : Bool} {magnitude : Magnitude} {decimal : Decimal} :
      magnitude ≠ .zero → magnitude ≠ .infinity → decimal.IsShortest magnitude →
        IsScriptText (.number negative magnitude) (signText negative ++
          scriptDigits (decimalDigits decimal.coefficient) (decimal.leadingExponent + 1))

theorem isScriptText_zero_iff {negative : Bool} {text : List Char} :
    IsScriptText (.number negative .zero) text ↔ text = ['0'] := by
  constructor
  · intro isText
    cases isText with
    | zero => rfl
    | digits notZero => exact absurd rfl notZero
  · rintro rfl
    exact .zero

theorem isScriptText_infinity_iff {negative : Bool} {text : List Char} :
    IsScriptText (.number negative .infinity) text ↔
      text = signText negative ++ "Infinity".toList := by
  constructor
  · intro isText
    cases isText with
    | infinity => rfl
    | digits _ finite => exact absurd rfl finite
  · rintro rfl
    exact .infinity

theorem isScriptText_iff {negative : Bool} {magnitude : Magnitude} {decimal : Decimal}
    {text : List Char} (notZero : magnitude ≠ .zero) (finite : magnitude ≠ .infinity)
    (isShortest : decimal.IsShortest magnitude) :
    IsScriptText (.number negative magnitude) (signText negative ++ text) ↔
      scriptDigits (decimalDigits decimal.coefficient) (decimal.leadingExponent + 1) = text := by
  constructor
  · intro isText
    generalize isWhole : signText negative ++ text = whole at isText
    cases isText with
    | zero => exact absurd rfl notZero
    | infinity => exact absurd rfl finite
    | digits _ _ otherShortest =>
        rw [isShortest.unique notZero otherShortest]
        exact (List.append_cancel_left isWhole).symm
  · rintro rfl
    exact .digits notZero finite isShortest

/-- A number has one text only. -/
theorem IsScriptText.unique {value : Binary64} {text other : List Char}
    (isText : IsScriptText value text) (isOther : IsScriptText value other) : text = other := by
  cases isText with
  | zero => exact (isScriptText_zero_iff.mp isOther).symm
  | infinity => exact (isScriptText_infinity_iff.mp isOther).symm
  | digits notZero finite isShortest =>
      cases isOther with
      | zero => exact absurd rfl notZero
      | infinity => exact absurd rfl finite
      | digits _ _ otherShortest => rw [isShortest.unique notZero otherShortest]

/-! The layouts of written numbers against it. -/

section Layout

variable {digits : List Char} {leading : Int}

theorem scriptDigits_eq_exponentText (notEmpty : digits ≠ [])
    (outside : leading < -6 ∨ 20 < leading) :
    scriptDigits digits (leading + 1) = DecimalStyle.exponentText digits leading := by
  have hasDigits := List.length_pos_iff.mpr notEmpty
  rw [scriptDigits, if_neg (by omega), if_neg (by omega), if_neg (by omega), add_sub_cancel_right]
  simp only [Int.add_one_le_iff]
  rcases digits with _ | ⟨first, _ | ⟨second, rest⟩⟩
  · exact absurd rfl notEmpty
  · rfl
  · simp [DecimalStyle.exponentText]

/-- A script writes no fraction behind a whole number. -/
theorem scriptDigits_eq_plainText {wholeFraction : Bool} (notEmpty : digits ≠ [])
    (least : -6 ≤ leading) (most : leading ≤ 20)
    (noWholeFraction : wholeFraction = false ∨ leading + 1 < digits.length) :
    scriptDigits digits (leading + 1) = DecimalStyle.plainText wholeFraction digits leading := by
  have hasDigits := List.length_pos_iff.mpr notEmpty
  rw [scriptDigits, DecimalStyle.plainText]
  rcases lt_or_ge leading 0 with isFraction | hasWhole
  · have zeros : (-(leading + 1)).toNat = (-leading).toNat - 1 := by omega
    rw [if_neg (by omega), if_neg (by omega), if_pos (by omega), if_pos isFraction, zeros]
  · have wholeLength : (leading + 1).toNat = leading.toNat + 1 := by omega
    rw [@if_neg (leading < 0) _ (not_lt.mpr hasWhole)]
    dsimp only
    rcases noWholeFraction.symm with hasFraction | noFraction
    · rw [if_neg (by omega), if_pos (by omega), wholeLength, if_neg (by omega)]
    · subst noFraction
      by_cases isWhole : digits.length ≤ leading.toNat + 1
      · have zeros : (leading + 1 - digits.length).toNat = leading.toNat + 1 - digits.length := by
          omega
        rw [if_pos (by omega), if_pos isWhole, zeros, if_neg Bool.false_ne_true, List.append_nil]
      · rw [if_neg (by omega), if_pos (by omega), wholeLength, if_neg isWhole]

/-- Numbers from 10^-6 up to 10^-5 have no exponent in a script. -/
theorem scriptDigits_ne_exponentText (notEmpty : digits ≠ []) (notZero : digits.head? ≠ some '0')
    (isMillionths : leading = -6) :
    scriptDigits digits (leading + 1) ≠ DecimalStyle.exponentText digits leading := by
  have hasDigits := List.length_pos_iff.mpr notEmpty
  intro same
  rw [scriptDigits, if_neg (by omega), if_neg (by omega), if_pos (by omega)] at same
  have sameFirst := congrArg List.head? same
  rcases digits with _ | ⟨first, _ | ⟨second, rest⟩⟩
  · exact absurd rfl notEmpty
  · exact notZero sameFirst.symm
  · exact notZero sameFirst.symm

end Layout

/-! The digits that are written are those of the shortest decimal. -/

theorem exists_decimalDigits_eq (value : Nat) :
    ∃ front, decimalDigits value = front ++ [(value % 10).digitChar] := by
  rcases Nat.lt_or_ge value 10 with isDigit | large
  · refine ⟨[], ?_⟩
    rw [decimalDigits, Nat.toDigits_of_lt_base isDigit, Nat.mod_eq_of_lt isDigit]
    rfl
  · exact ⟨_, Nat.toDigits_of_base_le (by decide) large⟩

namespace DecimalStyle

/-- Trailing zeros do not count. -/
theorem significantDigits_mul_pow {coefficient : Nat} (noZero : coefficient % 10 ≠ 0)
    (count : Nat) :
    significantDigits (coefficient * 10 ^ count) = decimalDigits coefficient := by
  have positive : 0 < coefficient := Nat.pos_of_ne_zero fun isZero => noZero (by rw [isZero])
  have areZeros : ∀ digit ∈ List.replicate count '0', (digit == '0') = true :=
    fun digit member => beq_iff_eq.mpr (List.eq_of_mem_replicate member)
  have every : ∀ digit : Fin 10, digit.val ≠ 0 → ¬(digit.val.digitChar == '0') = true := by decide
  have last : ¬((coefficient % 10).digitChar == '0') = true :=
    every ⟨coefficient % 10, Nat.mod_lt _ (by decide)⟩ noZero
  have ⟨front, split⟩ := exists_decimalDigits_eq coefficient
  rw [significantDigits, decimalDigits_mul_pow positive, List.reverse_append,
    List.reverse_replicate, List.dropWhile_append_of_pos areZeros, split, List.reverse_append,
    List.reverse_singleton, List.singleton_append,
    @List.dropWhile_cons_of_neg _ (· == '0') _ _ last, List.reverse_cons, List.reverse_reverse]

section Shortest

variable {magnitude : Magnitude} {decimal : Decimal} (notZero : magnitude ≠ .zero)
  (isShortest : decimal.IsShortest magnitude)

include notZero isShortest

theorem magnitudeText_eq {style : DecimalStyle} (even : style.tie = .toEven) :
    style.magnitudeText magnitude =
      if style.writesPlainly decimal.leadingExponent then
        plainText style.wholeFraction (decimalDigits decimal.coefficient) decimal.leadingExponent
      else
        exponentText (decimalDigits decimal.coefficient) decimal.leadingExponent := by
  have noZero := isShortest.mod_ten_ne_zero notZero
  have positive := Magnitude.coefficient_pos notZero isShortest.readsBack
  have isRank : magnitude.isZero = false :=
    eq_false_of_ne_true (Magnitude.isZero_iff.not.mpr notZero)
  have ⟨other, otherShortest, isValue⟩ := Magnitude.exists_isShortest notZero
  rw [otherShortest.unique notZero isShortest] at isValue
  have ⟨count, isCoefficient, isExponent⟩ := Decimal.exists_mul_pow noZero isValue.symm
  have sameLeading :
      (magnitude.shortest .toEven).leadingExponent = decimal.leadingExponent := by
    rw [Decimal.leadingExponent_eq, Decimal.leadingExponent_eq, Decimal.places, isCoefficient,
      decimalDigits_mul_pow positive, List.length_append, List.length_replicate, isExponent,
      Decimal.places]
    omega
  rw [magnitudeText, even, isRank, if_neg Bool.false_ne_true]
  simp only [isCoefficient, sameLeading, significantDigits_mul_pow noZero]

end Shortest

end DecimalStyle

/-! All digits of a whole number, as far as they are written without an exponent, against the
shortest ones. -/

section Whole

variable {magnitude : Magnitude} {decimal : Decimal} {whole : Nat}
  (readsBack : magnitude.IsNearest whole) (positive : 0 < whole)

include readsBack positive

variable (isShortest : decimal.IsShortest magnitude) (small : magnitude.value < 10 ^ (21 : Int))

include isShortest

theorem leadingExponent_nonneg : 0 ≤ decimal.leadingExponent := by
  have notZero := readsBack.ne_zero positive
  refine (Decimal.le_value_iff (Magnitude.coefficient_pos notZero isShortest.readsBack)).mp ?_
  exact isShortest.power_le_value ((zpow_zero _).trans_le (readsBack.one_le_value positive))

include small

theorem leadingExponent_le : decimal.leadingExponent ≤ 20 := by
  have notZero := readsBack.ne_zero positive
  have isPower : (Magnitude.ofNat (10 ^ 21)).value = 10 ^ (21 : Int) :=
    Magnitude.value_ofNat_ten_pow (by decide)
  refine Int.le_of_lt_add_one ((Decimal.value_lt_iff
    (Magnitude.coefficient_pos notZero isShortest.readsBack)).mp ?_)
  exact isShortest.value_lt_power isPower small

theorem scriptDigits_eq_decimalDigits_iff :
    scriptDigits (decimalDigits decimal.coefficient) (decimal.leadingExponent + 1) =
      decimalDigits whole ↔ decimal.value = whole := by
  have notZero := readsBack.ne_zero positive
  have least := leadingExponent_nonneg readsBack positive isShortest
  have most := leadingExponent_le readsBack positive isShortest small
  have isPoint : decimal.leadingExponent + 1 =
      decimal.exponent + (decimalDigits decimal.coefficient).length := by
    rw [Decimal.leadingExponent]
    omega
  rcases lt_or_ge decimal.exponent 0 with hasFraction | isWhole
  · rw [scriptDigits, if_neg (by omega), if_pos (by omega)]
    refine iff_of_false ?_ ?_
    · intro same
      have point : '.' ∈ decimalDigits whole := by
        rw [← same]
        exact List.mem_append_right _ List.mem_cons_self
      exact absurd (isDecimalDigit_of_mem point) (by decide)
    · intro same
      have isValue : (Decimal.mk whole 0).value = decimal.value := by
        rw [same, Decimal.value, zpow_zero, mul_one]
      rcases Decimal.exists_mul_pow (isShortest.mod_ten_ne_zero notZero) isValue with
        ⟨count, _, isExponent⟩
      have isZero : (Decimal.mk whole 0).exponent = 0 := rfl
      omega
  · rcases Int.eq_ofNat_of_zero_le isWhole with ⟨count, isCount⟩
    have hasDigits := Magnitude.coefficient_pos notZero isShortest.readsBack
    have zeros : (decimal.leadingExponent + 1 -
        (decimalDigits decimal.coefficient).length).toNat = count := by omega
    rw [scriptDigits, if_pos (by omega), zeros, ← decimalDigits_mul_pow hasDigits, Decimal.value,
      isCount, Decimal.ten_zpow_natCast, ← Nat.cast_mul, Nat.cast_inj]
    constructor
    · intro same
      rw [← digitsValue_decimalDigits (decimal.coefficient * 10 ^ count), same,
        digitsValue_decimalDigits]
    · exact congrArg decimalDigits

omit small in
/-- All the digits of a whole number below 2^53 are needed. -/
theorem value_eq_whole (exact : whole < 2 * Magnitude.stepsPerBinade) :
    decimal.value = whole := by
  have isValue : magnitude.value = whole := by
    rw [readsBack.unique (Magnitude.isNearest_ofNat whole), Magnitude.value_ofNat exact]
  rcases lt_or_ge decimal.exponent 0 with hasFraction | isWhole
  · -- It would have no more digits than the whole number, some of them behind the point.
    have wholeValue : (Decimal.mk whole 0).value = whole := by
      rw [Decimal.value, zpow_zero, mul_one]
    have fewest := isShortest.fewest _ (wholeValue.symm ▸ readsBack)
    have least := (Decimal.le_value_iff positive).mpr (le_refl (Decimal.mk whole 0).leadingExponent)
    rw [wholeValue, ← isValue] at least
    have notBelow := isShortest.power_le_value least
    have below := @Decimal.value_lt_of_places decimal (Decimal.mk whole 0).leadingExponent (by
      rw [Decimal.leadingExponent_eq]
      have isZero : (Decimal.mk whole 0).exponent = 0 := rfl
      omega)
    exact absurd below (not_lt.mpr notBelow)
  · rcases Decimal.exists_value_eq isWhole with ⟨other, isOther⟩
    rw [Decimal.value, zpow_zero, mul_one] at isOther
    have otherReads := isShortest.readsBack
    rw [← isOther] at otherReads ⊢
    have isLess : other < 2 * Magnitude.stepsPerBinade := by
      by_contra notLess
      have order := (Magnitude.isNearest_value _).mono otherReads
        (Magnitude.value_ofNat_two_pow.trans_le (Nat.cast_le.mpr (not_lt.mp notLess)))
      rw [Magnitude.value_ofNat_two_pow, isValue] at order
      exact absurd (Nat.cast_le.mp order) (not_le.mpr exact)
    rw [← isValue, otherReads.unique (Magnitude.isNearest_ofNat other),
      Magnitude.value_ofNat isLess]

end Whole

end MetricWatch
