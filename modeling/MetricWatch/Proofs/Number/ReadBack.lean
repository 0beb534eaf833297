import MetricWatch.Number.DecimalStyle
import MetricWatch.Proofs.Number.NumericPrefix
import MetricWatch.Proofs.Number.ScriptText
import MetricWatch.Proofs.Number.Written

namespace MetricWatch

/-! Written numbers are read back. In every layout the text is a word that stands for the decimal
of which it shows the digits, and that decimal rounds to the number. -/

namespace NumberWord

open Json.Grammar (Digits Sign Exponent)

/-! A word that is a whole text is read as what it stands for. -/

theorem Word.exists_first {negative : Bool} {value : ℚ} {text : List Char}
    (isWord : Word negative (.finite value) text) :
    ∃ signText first rest, text = signText ++ first :: rest ∧
      (signText = [] ∨ signText = ['+'] ∨ signText = ['-']) ∧
      (isDecimalDigit first = true ∨ first = '.') := by
  cases isWord with
  | of isSign isUnsigned =>
      cases isUnsigned with
      | numeral isMantissa =>
          have ⟨first, rest, isText, isFirst⟩ := isMantissa.exists_first
          rw [isText]
          cases isSign
          case absent => exact ⟨[], first, _, rfl, .inl rfl, isFirst⟩
          case plus => exact ⟨['+'], first, _, rfl, .inr (.inl rfl), isFirst⟩
          case minus => exact ⟨['-'], first, _, rfl, .inr (.inr rfl), isFirst⟩

theorem isWhiteSpace_of_isDecimalDigit {digit : Char} (isDigit : isDecimalDigit digit = true) :
    isWhiteSpace digit = false := by
  rw [isDecimalDigit, Bool.and_eq_true, decide_eq_true_eq, decide_eq_true_eq] at isDigit
  have least : 48 ≤ digit.toNat := isDigit.1
  have most : digit.toNat ≤ 57 := isDigit.2
  simp only [isWhiteSpace, Bool.or_eq_false_iff, Bool.and_eq_false_iff, decide_eq_false_iff_not,
    beq_eq_false_iff_ne]
  omega

theorem Word.trimStart_eq {negative : Bool} {value : ℚ} {text : List Char}
    (isWord : Word negative (.finite value) text) : trimStart text = text := by
  have ⟨signText, first, rest, isText, isSign, isFirst⟩ := isWord.exists_first
  have notWhite : isWhiteSpace first = false := by
    rcases isFirst with isDigit | rfl
    · exact isWhiteSpace_of_isDecimalDigit isDigit
    · decide
  rw [isText]
  rcases isSign with rfl | rfl | rfl
  · exact List.dropWhile_cons_of_neg (Bool.eq_false_iff.mp notWhite)
  · exact List.dropWhile_cons_of_neg (by decide)
  · exact List.dropWhile_cons_of_neg (by decide)

theorem trimEnd_prefix (text : List Char) : trimEnd text <+: text := by
  have isSuffix := List.dropWhile_suffix isWhiteSpace (l := text.reverse)
  rw [← List.reverse_prefix, List.reverse_reverse] at isSuffix
  exact isSuffix

theorem Word.not_spellsInfinity {negative : Bool} {value : ℚ} {text : List Char}
    (isWord : Word negative (.finite value) text) : ¬SpellsInfinity text := by
  have ⟨signText, first, rest, isText, isSign, isFirst⟩ := isWord.exists_first
  have notFirst : ∀ other, isDecimalDigit other = false → other ≠ '.' → other ≠ first := by
    rintro _ notDigit notPoint rfl
    rcases isFirst with isDigit | isPoint
    · exact Bool.eq_false_iff.mp notDigit isDigit
    · exact notPoint isPoint
  -- Without a sign the mark would be the first character, with a sign the `I` would be.
  have apart : ∀ mark, mark = '+' ∨ mark = '-' → ¬[mark, 'I', 'n', 'f'] <+: text := by
    intro mark isMark isPrefix
    rw [isText] at isPrefix
    rcases isSign with rfl | rfl | rfl
    · have sameFirst := (List.cons_prefix_cons.mp isPrefix).1
      rcases isMark with rfl | rfl
      · exact notFirst '+' rfl (by decide) sameFirst
      · exact notFirst '-' rfl (by decide) sameFirst
    · have behindSign := (List.cons_prefix_cons.mp isPrefix).2
      exact notFirst 'I' rfl (by decide) (List.cons_prefix_cons.mp behindSign).1
    · have behindSign := (List.cons_prefix_cons.mp isPrefix).2
      exact notFirst 'I' rfl (by decide) (List.cons_prefix_cons.mp behindSign).1
  have isPrefix := trimEnd_prefix text
  rw [SpellsInfinity, trim, isWord.trimStart_eq]
  rintro (isPlus | isMinus)
  · rw [isPlus] at isPrefix
    exact apart '+' (.inl rfl) isPrefix
  · rw [isMinus] at isPrefix
    exact apart '-' (.inr rfl) isPrefix

/-- A numeral is read as the nearest number. -/
theorem Word.readNumericPrefix_eq {negative : Bool} {value : ℚ} {text : List Char}
    {magnitude : Magnitude} (isWord : Word negative (.finite value) text)
    (isNearest : magnitude.IsNearest value) :
    readNumericPrefix text = .number negative magnitude := by
  rw [readNumericPrefix_eq_readSigned isWord.not_spellsInfinity, isWord.trimStart_eq]
  have isLongest : IsLongest text text :=
    ⟨List.prefix_refl text, ⟨_, _, isWord⟩, fun _ isPrefix _ => isPrefix.length_le⟩
  rcases readSigned_cases text with ⟨word, _, _, _, isOther, denotes, isRead, reads⟩ | ⟨noWord, _⟩
  · rw [isOther.unique isLongest] at denotes
    have ⟨sameSign, sameSize⟩ := denotes.unique isWord
    rw [sameSize] at isRead
    rw [reads, sameSign, isRead.unique isNearest]
  · exact absurd isLongest.isWord (noWord text isLongest.isPrefix)

theorem Unsigned.readNumericPrefix_eq {value : ℚ} {text : List Char} {magnitude : Magnitude}
    (isUnsigned : Unsigned (.finite value) text) (isNearest : magnitude.IsNearest value)
    (negative : Bool) :
    readNumericPrefix (signText negative ++ text) = .number negative magnitude := by
  cases negative with
  | false => exact (Word.of .absent isUnsigned).readNumericPrefix_eq isNearest
  | true => exact (Word.of .minus isUnsigned).readNumericPrefix_eq isNearest

/-! The layouts of digits. -/

/-- Digits of which the first one stands at a power of ten. -/
def shownValue (digits : List Char) (leading : Int) : ℚ :=
  digitsValue digits * 10 ^ (leading + 1 - digits.length)

theorem digits_zeros (count : Nat) : Digits (List.replicate count '0') := by
  intro digit member
  rw [List.eq_of_mem_replicate member]
  decide

theorem digitsValue_zeros (count : Nat) : digitsValue (List.replicate count '0') = 0 := by
  induction count with
  | zero => rfl
  | succ count induction =>
      rw [List.replicate_succ', digitsValue_append, induction]
      rfl

theorem digitsValue_append_zeros (digits : List Char) (count : Nat) :
    digitsValue (digits ++ List.replicate count '0') = digitsValue digits * 10 ^ count := by
  rw [digitsValue_append, digitsValue_zeros, List.length_replicate, Nat.add_zero]

theorem digitsValue_zeros_append (count : Nat) (digits : List Char) :
    digitsValue (List.replicate count '0' ++ digits) = digitsValue digits := by
  rw [digitsValue_append, digitsValue_zeros, Nat.zero_mul, Nat.zero_add]

theorem digits_decimalDigits (value : Nat) : Digits (decimalDigits value) :=
  fun _ => isDecimalDigit_of_mem

/-- A numeral shows digits if it spells them, with zeros behind them, and has the place of its
last digit right. -/
theorem unsigned_of_digits {digits whole fraction mantissaText exponentText : List Char}
    {leading : Int} {exponent : Option Int} (isMantissa : Mantissa whole fraction mantissaText)
    (isExponent : Exponent exponent exponentText) (zeros : Nat)
    (spelled : digitsValue (whole ++ fraction) = digitsValue digits * 10 ^ zeros)
    (place : exponent.getD 0 - fraction.length + zeros = leading + 1 - digits.length) :
    Unsigned (.finite (shownValue digits leading)) (mantissaText ++ exponentText) := by
  have isValue : numeralValue whole fraction (exponent.getD 0) = shownValue digits leading := by
    have isDecimal := Numeral.value_decimal ⟨whole, fraction, exponent.getD 0⟩
    rw [← isDecimal, Decimal.value, Numeral.decimal, spelled, shownValue, ← place,
      zpow_add₀ (by norm_num), zpow_natCast]
    push_cast
    ring
  rw [← isValue]
  exact .numeral isMantissa isExponent

theorem unsigned_decimalDigits (whole : Nat) : Unsigned (.finite whole) (decimalDigits whole) := by
  have notEmpty : decimalDigits whole ≠ [] := Nat.toDigits_ne_nil
  have isUnsigned := Unsigned.numeral (.whole notEmpty (digits_decimalDigits whole)) .absent
  have isValue : numeralValue (decimalDigits whole) [] 0 = whole := by
    rw [numeralValue, digitsValue_decimalDigits]
    simp [digitsValue]
  rwa [Option.getD_none, isValue, List.append_nil] at isUnsigned

section Layout

variable {digits : List Char} (notEmpty : digits ≠ []) (areDigits : Digits digits)

include notEmpty areDigits

theorem unsigned_plainText (wholeFraction : Bool) (leading : Int) :
    Unsigned (.finite (shownValue digits leading))
      (DecimalStyle.plainText wholeFraction digits leading) := by
  have hasDigits := List.length_pos_iff.mpr notEmpty
  have oneZero : Digits ['0'] := digits_zeros 1
  rw [← List.append_nil (DecimalStyle.plainText wholeFraction digits leading),
    DecimalStyle.plainText]
  split
  case isTrue isFraction =>
    have zeros := digits_zeros ((-leading).toNat - 1)
    have isMantissa := Mantissa.pointed (List.cons_ne_nil '0' []) oneZero
      (List.forall_mem_append.mpr ⟨zeros, areDigits⟩)
    refine unsigned_of_digits isMantissa .absent 0 ?_ ?_
    · rw [Nat.pow_zero, Nat.mul_one]
      exact digitsValue_zeros_append ((-leading).toNat - 1 + 1) digits
    · simp only [Option.getD_none, List.length_append, List.length_replicate]
      omega
  case isFalse hasWhole =>
    simp only
    split
    case isTrue =>
      have isWhole := List.forall_mem_append.mpr ⟨areDigits,
        digits_zeros (leading.toNat + 1 - digits.length)⟩
      have hasWhole := List.append_ne_nil_of_left_ne_nil notEmpty
        (List.replicate (leading.toNat + 1 - digits.length) '0')
      cases wholeFraction with
      | false =>
          rw [if_neg Bool.false_ne_true, List.append_nil]
          refine unsigned_of_digits (.whole hasWhole isWhole) .absent
            (leading.toNat + 1 - digits.length) ?_ ?_
          · rw [List.append_nil, digitsValue_append_zeros]
          · simp only [Option.getD_none, List.length_nil]
            omega
      | true =>
          rw [if_pos rfl]
          refine unsigned_of_digits (.pointed hasWhole isWhole oneZero) .absent
            (leading.toNat + 1 - digits.length + 1) ?_ ?_
          · rw [List.append_assoc, ← digitsValue_append_zeros, List.replicate_succ']
          · simp only [Option.getD_none, List.length_singleton]
            omega
    case isFalse =>
      have hasWhole : digits.take (leading.toNat + 1) ≠ [] := by
        rw [ne_eq, List.take_eq_nil_iff, not_or]
        exact ⟨Nat.succ_ne_zero _, notEmpty⟩
      refine unsigned_of_digits (.pointed hasWhole
        (fun digit member => areDigits digit (List.mem_of_mem_take member))
        (fun digit member => areDigits digit (List.mem_of_mem_drop member))) .absent 0 ?_ ?_
      · rw [List.take_append_drop, Nat.pow_zero, Nat.mul_one]
      · simp only [Option.getD_none, List.length_drop]
        omega

theorem unsigned_exponentText (leading : Int) :
    Unsigned (.finite (shownValue digits leading)) (DecimalStyle.exponentText digits leading) := by
  have isExponent : Exponent (some leading)
      ('e' :: (if leading < 0 then '-' else '+') :: decimalDigits leading.natAbs) := by
    have notEmpty : decimalDigits leading.natAbs ≠ [] := Nat.toDigits_ne_nil
    have areDigits := digits_decimalDigits leading.natAbs
    have isSize := digitsValue_decimalDigits leading.natAbs
    split
    case isTrue negative =>
      have isExponent := Exponent.present (.inl rfl) .minus notEmpty areDigits
      have signed : -1 * (leading.natAbs : Int) = leading := by omega
      rwa [isSize, signed] at isExponent
    case isFalse notNegative =>
      have isExponent := Exponent.present (.inl rfl) .plus notEmpty areDigits
      have signed : 1 * (leading.natAbs : Int) = leading := by omega
      rwa [isSize, signed] at isExponent
  rcases digits with _ | ⟨first, _ | ⟨second, rest⟩⟩
  · exact absurd rfl notEmpty
  · refine unsigned_of_digits (.whole notEmpty areDigits) isExponent 0 ?_ ?_
    · rw [List.append_nil, Nat.pow_zero, Nat.mul_one]
    · simp
  · have ⟨isFirst, areOthers⟩ := List.forall_mem_cons.mp areDigits
    refine unsigned_of_digits (.pointed (List.cons_ne_nil first [])
      (List.forall_mem_singleton.mpr isFirst) areOthers) isExponent 0 ?_ ?_
    · exact (Nat.mul_one _).symm
    · simp only [Option.getD_some, List.length_cons]
      omega

end Layout

end NumberWord

/-! What is shown of a decimal are all its digits but the zeros at the end. -/

namespace DecimalStyle

theorem exists_significantDigits_append (coefficient : Nat) : ∃ zeros,
    decimalDigits coefficient = significantDigits coefficient ++ List.replicate zeros '0' := by
  have areZeros : ∀ digit ∈ (decimalDigits coefficient).reverse.takeWhile (· == '0'),
      digit = '0' :=
    fun digit member => eq_of_beq (List.all_eq_true.mp List.all_takeWhile digit member)
  have split := List.takeWhile_append_dropWhile (p := (· == '0'))
    (l := (decimalDigits coefficient).reverse)
  rw [List.eq_replicate_of_mem areZeros] at split
  refine ⟨((decimalDigits coefficient).reverse.takeWhile (· == '0')).length, ?_⟩
  rw [significantDigits, ← List.reverse_replicate, ← List.reverse_append, split,
    List.reverse_reverse]

open NumberWord

theorem significantDigits_ne_nil {coefficient : Nat} (positive : 0 < coefficient) :
    significantDigits coefficient ≠ [] := by
  intro isEmpty
  have ⟨zeros, isText⟩ := exists_significantDigits_append coefficient
  have isZero := digitsValue_decimalDigits coefficient
  rw [isText, isEmpty, List.nil_append, digitsValue_zeros] at isZero
  exact positive.ne isZero

theorem digits_significantDigits (coefficient : Nat) :
    Json.Grammar.Digits (significantDigits coefficient) := by
  intro digit member
  exact isDecimalDigit_of_mem ((significantDigits_sublist coefficient).mem member)

theorem shownValue_significantDigits (decimal : Decimal) :
    shownValue (significantDigits decimal.coefficient) decimal.leadingExponent = decimal.value := by
  have ⟨zeros, isText⟩ := exists_significantDigits_append decimal.coefficient
  have isCoefficient := digitsValue_decimalDigits decimal.coefficient
  have isLength := congrArg List.length isText
  rw [isText, digitsValue_append_zeros] at isCoefficient
  rw [List.length_append, List.length_replicate] at isLength
  have place : decimal.leadingExponent + 1 -
      ((significantDigits decimal.coefficient).length : Int) = zeros + decimal.exponent := by
    rw [Decimal.leadingExponent]
    omega
  rw [shownValue, place, Decimal.value, zpow_add₀ (by norm_num), zpow_natCast, ← mul_assoc]
  congr 1
  exact_mod_cast isCoefficient

end DecimalStyle

namespace Magnitude

theorem five_pow_mul_zpow (units places : Nat) :
    ((units * Nat.pow 5 places : Nat) : ℚ) * (10 : ℚ) ^ (-(places : Int)) =
      units / ((1 <<< places : Nat) : ℚ) := by
  have product : (10 : ℚ) ^ places = 2 ^ places * 5 ^ places := by
    rw [← mul_pow]
    norm_num
  rw [Nat.one_shiftLeft, Nat.pow_eq, zpow_neg, zpow_natCast, product]
  push_cast
  field_simp

theorem value_exactDecimal (magnitude : Magnitude) :
    magnitude.exactDecimal.value = magnitude.value := by
  have isNegated : (-1074 : Int) = -(1074 : Nat) := rfl
  rw [exactDecimal, Decimal.value, value, unitsPerOne, isNegated]
  generalize 1074 = places
  exact five_pow_mul_zpow magnitude.units places

/-- Whichever way ties go, the decimal that is chosen reads back. -/
theorem isNearest_shortest (magnitude : Magnitude) (tie : TieRule) :
    magnitude.IsNearest (magnitude.shortest tie).value := by
  unfold shortest
  simp only
  cases found : (List.range 17).findSome? fun (extraDigits : Nat) =>
      magnitude.onGrid? tie (magnitude.leadingExponent - extraDigits) with
  | none =>
      rw [Option.getD_none, value_exactDecimal]
      exact magnitude.isNearest_value
  | some decimal =>
      have ⟨extraDigits, _, isFound⟩ := List.exists_of_findSome?_eq_some found
      exact Decimal.magnitude_eq_iff.mp (magnitude_of_onGrid? isFound)

end Magnitude

namespace DecimalStyle

open NumberWord

theorem exists_unsigned (style : DecimalStyle) (magnitude : Magnitude) :
    ∃ value, Unsigned (.finite value) (style.magnitudeText magnitude) ∧
      magnitude.IsNearest value := by
  unfold magnitudeText
  split
  case isTrue isZero =>
    have isValue : magnitude.value = shownValue ['0'] 0 := by
      rw [Magnitude.isZero_iff.mp isZero, Magnitude.value_zero, shownValue]
      simp [digitsValue, digitValue]
    refine ⟨_, ?_, magnitude.isNearest_value⟩
    rw [isValue]
    have isUnsigned := unsigned_plainText (List.cons_ne_nil '0' []) (digits_zeros 1)
      style.wholeFraction 0
    cases whole : style.wholeFraction <;> rwa [whole] at isUnsigned
  case isFalse notZero =>
    have readsBack := magnitude.isNearest_shortest style.tie
    have positive : 0 < (magnitude.shortest style.tie).coefficient :=
      Magnitude.coefficient_pos (mt Magnitude.isZero_iff.mpr notZero) readsBack
    have notEmpty := significantDigits_ne_nil positive
    have areDigits := digits_significantDigits (magnitude.shortest style.tie).coefficient
    rw [← shownValue_significantDigits] at readsBack
    refine ⟨_, ?_, readsBack⟩
    simp only
    split
    · exact unsigned_plainText notEmpty areDigits _ _
    · exact unsigned_exponentText notEmpty areDigits _

/-- Finite numbers are read back from what is written of them, in every style. -/
theorem readNumericPrefix_characters (style : DecimalStyle) {value : Binary64}
    (finite : value.isFinite = true) : readNumericPrefix (style.characters value) = value := by
  cases value with
  | nan => cases finite
  | number negative magnitude =>
      have ⟨value, isUnsigned, isNearest⟩ := style.exists_unsigned magnitude
      rw [Binary64.isFinite, Bool.not_eq_true'] at finite
      rw [characters, finite, if_neg Bool.false_ne_true]
      exact isUnsigned.readNumericPrefix_eq isNearest negative

end DecimalStyle

/-! The text of a script is read back as well, but for the sign of a zero. -/

section Script

open NumberWord

theorem unsigned_scriptDigits {digits : List Char} (notEmpty : digits ≠ [])
    (areDigits : Json.Grammar.Digits digits) (leading : Int) :
    Unsigned (.finite (shownValue digits leading)) (scriptDigits digits (leading + 1)) := by
  by_cases isPlain : -6 ≤ leading ∧ leading ≤ 20
  · rw [scriptDigits_eq_plainText notEmpty isPlain.1 isPlain.2 (.inl rfl)]
    exact unsigned_plainText notEmpty areDigits false leading
  · rw [scriptDigits_eq_exponentText notEmpty (by omega)]
    exact unsigned_exponentText notEmpty areDigits leading

theorem shownValue_decimalDigits (decimal : Decimal) :
    shownValue (decimalDigits decimal.coefficient) decimal.leadingExponent = decimal.value := by
  have place : decimal.leadingExponent + 1 - ((decimalDigits decimal.coefficient).length : Int) =
      decimal.exponent := by
    rw [Decimal.leadingExponent]
    omega
  rw [shownValue, place, digitsValue_decimalDigits, Decimal.value]

theorem IsScriptText.exists_readNumericPrefix_eq {negative : Bool} {magnitude : Magnitude}
    {text : List Char} (isText : IsScriptText (.number negative magnitude) text) :
    ∃ sign, readNumericPrefix text = .number sign magnitude := by
  cases isText with
  | zero => exact ⟨false, by decide +kernel⟩
  | infinity => exact ⟨negative, by cases negative <;> decide +kernel⟩
  | @digits _ _ decimal _ _ isShortest =>
      have notEmpty : decimalDigits decimal.coefficient ≠ [] := Nat.toDigits_ne_nil
      have isUnsigned := unsigned_scriptDigits notEmpty
        (digits_decimalDigits decimal.coefficient) decimal.leadingExponent
      rw [shownValue_decimalDigits] at isUnsigned
      exact ⟨negative, isUnsigned.readNumericPrefix_eq isShortest.readsBack negative⟩

end Script

end MetricWatch
