import MetricWatch.Proofs.Lookup
import MetricWatch.Proofs.Number.ReadBack
import MetricWatch.Proofs.Response.AllOrNothing

namespace MetricWatch

/-! Numbers in labels against the texts that a script gives for them. -/

namespace Json.Spelling

/-- The double that a script reads for a spelling. -/
def IsReadAs (spelling : Spelling) (value : Binary64) : Prop :=
  ∃ magnitude : Magnitude, value = .number spelling.negative magnitude ∧
    magnitude.IsNearest spelling.decimal.value

/-- A script reads a spelling and makes a text of the number. -/
def HasScriptText (spelling : Spelling) (text : List Char) : Prop :=
  ∃ value, spelling.IsReadAs value ∧ IsScriptText value text

section

variable {spelling : Spelling} {text other : List Char}

theorem HasScriptText.unique (isText : spelling.HasScriptText text)
    (isOther : spelling.HasScriptText other) : text = other := by
  rcases isText with ⟨_, ⟨magnitude, rfl, isNearest⟩, isText⟩
  rcases isOther with ⟨_, ⟨otherMagnitude, rfl, otherNearest⟩, isOther⟩
  rw [← isNearest.unique otherNearest] at isOther
  exact isText.unique isOther

theorem hasScriptText_zero (isZero : spelling.decimal.magnitude = .zero) :
    spelling.HasScriptText ['0'] :=
  ⟨_, ⟨.zero, rfl, Decimal.magnitude_eq_iff.mp isZero⟩, .zero⟩

/-- The text of a script, as it can be computed. -/
theorem hasScriptText_shortest (notZero : spelling.decimal.magnitude ≠ .zero)
    (finite : spelling.decimal.magnitude ≠ .infinity)
    (noZero : (spelling.decimal.magnitude.shortest .toEven).coefficient % 10 ≠ 0) :
    spelling.HasScriptText (signText spelling.negative ++
      scriptDigits (decimalDigits (spelling.decimal.magnitude.shortest .toEven).coefficient)
        ((spelling.decimal.magnitude.shortest .toEven).leadingExponent + 1)) :=
  ⟨_, ⟨_, rfl, Decimal.isNearest_magnitude _⟩,
    .digits notZero finite (Decimal.isShortest_of_mod_ten_ne_zero notZero noZero)⟩

end

end Json.Spelling

namespace Response

open Json

/-- The whole number whose digits are all written, if a number is written like that. -/
def writtenWhole? : Json.Number → Option Nat
  | .whole value => some value.natAbs
  | .real .nan => none
  | .real (.number _ magnitude) =>
      if writesWhole magnitude then some magnitude.wholePart else none

/-- When the text of a number in a label is the one of a script: it is not a zero with a minus;
where all the digits of a whole number are written, the fewest digits that read back are the
same; and it is not between 10^-6 and 10^-5, where a script does without an exponent. -/
structure WrittenAlike (number : Json.Number) (magnitude : Magnitude) : Prop where
  notNegativeZero : number.toBinary64 ≠ .number true .zero
  fewestDigits : ∀ {whole}, writtenWhole? number = some whole →
    ∃ decimal : Decimal, decimal.IsShortest magnitude ∧ decimal.value = whole
  notMillionths : writtenWhole? number = none → ∀ {decimal : Decimal},
    decimal.IsShortest magnitude → decimal.leadingExponent ≠ -6

theorem writesPlainly_realStyle_iff {leading : Int} :
    Number.realStyle.writesPlainly leading = true ↔ -5 ≤ leading ∧ leading < 16 := by
  simp [DecimalStyle.writesPlainly, Number.realStyle]

/-- The digits of a real number are laid out as in a script, except from 10^-6 up to 10^-5. -/
theorem realStyle_eq_scriptDigits_iff {magnitude : Magnitude} {decimal : Decimal}
    (notZero : magnitude ≠ .zero) (isShortest : decimal.IsShortest magnitude)
    (notWhole : magnitude.isWhole = false ∨ 10 ^ (21 : Int) ≤ magnitude.value) :
    scriptDigits (decimalDigits decimal.coefficient) (decimal.leadingExponent + 1) =
        Number.realStyle.magnitudeText magnitude ↔
      decimal.leadingExponent ≠ -6 := by
  have positive := Magnitude.coefficient_pos notZero isShortest.readsBack
  have notEmpty : decimalDigits decimal.coefficient ≠ [] := Nat.toDigits_ne_nil
  rw [DecimalStyle.magnitudeText_eq notZero isShortest rfl]
  simp only [writesPlainly_realStyle_iff]
  rcases notWhole with fraction | large
  · have finer := isShortest.exponent_neg fraction
    have most := (Decimal.value_lt_iff positive).mp (isShortest.value_lt fraction)
    rcases lt_or_ge decimal.leadingExponent (-5) with notPlain | plain
    · rw [if_neg (by omega)]
      rcases lt_or_ge decimal.leadingExponent (-6) with small | millionths
      · exact iff_of_true (scriptDigits_eq_exponentText notEmpty (.inl small)) (by omega)
      · have isMillionths : decimal.leadingExponent = -6 := by omega
        exact iff_of_false (scriptDigits_ne_exponentText notEmpty (head?_decimalDigits_ne positive)
          isMillionths) (not_not.mpr isMillionths)
    · have hasFraction :
          decimal.leadingExponent + 1 < (decimalDigits decimal.coefficient).length := by
        rw [Decimal.leadingExponent]
        omega
      rw [if_pos ⟨plain, most⟩]
      exact iff_of_true
        (scriptDigits_eq_plainText notEmpty (by omega) (by omega) (.inr hasFraction)) (by omega)
  · have leading := (Decimal.le_value_iff positive).mp (isShortest.power_le_value large)
    rw [if_neg (by omega)]
    exact iff_of_true (scriptDigits_eq_exponentText notEmpty (by omega)) (by omega)

/-- What is known of a number in a document. -/
structure Stands (spelling : Spelling) (number : Json.Number) (magnitude : Magnitude) : Prop where
  isBinary64 : number.toBinary64 = .number spelling.negative magnitude
  finite : magnitude ≠ .infinity
  isWhole : ∀ {whole}, writtenWhole? number = some whole →
    magnitude.IsNearest whole ∧ magnitude.value < 10 ^ (21 : Int)
  notWhole : writtenWhole? number = none →
    magnitude.isWhole = false ∨ 10 ^ (21 : Int) ≤ magnitude.value
  isText : (numberText number).toList = signText spelling.negative ++
    match writtenWhole? number with
    | some whole => decimalDigits whole
    | none => Number.realStyle.magnitudeText magnitude

section Stands

variable {spelling : Spelling} {number : Json.Number}

theorem toList_signed (negative : Bool) (digits : String) :
    ((if negative then "-" else "") ++ digits).toList = signText negative ++ digits.toList := by
  cases negative <;> simp [signText]

/-- Integers of 64 bits are below 10^20. -/
theorem stands_whole {value : Int} (isWhole : spelling.ReadsWhole value) :
    Stands spelling (.whole value) (.ofNat value.natAbs) := by
  have isNearest := Magnitude.isNearest_ofNat value.natAbs
  have isNegative : decide (value < 0) = spelling.negative :=
    (Binary64.number.inj isWhole.toBinary64_eq).1
  have isPower : (Magnitude.ofNat (10 ^ 20)).value = 10 ^ (20 : Int) :=
    Magnitude.value_ofNat_ten_pow (by decide)
  have small : (Magnitude.ofNat value.natAbs).value < 10 ^ (21 : Int) := by
    have isLess : value.natAbs ≤ 10 ^ 20 := isWhole.natAbs_lt.le.trans (by decide)
    have order := isNearest.mono (Magnitude.isNearest_ofNat (10 ^ 20)) (Nat.cast_le.mpr isLess)
    rw [isPower] at order
    exact order.trans_lt (by norm_num)
  constructor
  case isBinary64 => exact isWhole.toBinary64_eq
  case finite => exact Spelling.ne_infinity_of_isNearest isNearest isWhole.natAbs_lt
  case isWhole =>
    rintro whole ⟨⟩
    exact ⟨isNearest, small⟩
  case notWhole => exact nofun
  case isText =>
    have isText : (numberText (.whole value)).toList =
        signText (decide (value < 0)) ++ decimalDigits value.natAbs := by
      change (integerText value).toList = _
      by_cases negative : value < 0 <;>
        simp [integerText, negative, signText, decimalText]
    rw [isText, isNegative]
    rfl

theorem writesWhole_iff {magnitude : Magnitude} (finite : magnitude.isInfinite = false) :
    writesWhole magnitude = true ↔
      magnitude.isWhole = true ∧ magnitude.value < 10 ^ (21 : Int) := by
  have isLess : (magnitude.wholePart : ℚ) < 10 ^ ((21 : Nat) : Int) ↔
      magnitude.wholePart < Nat.pow 10 21 := by
    rw [Decimal.ten_zpow_natCast, Nat.cast_lt]
    rfl
  simp only [writesWhole, finite, Bool.not_false, Bool.true_and, Bool.and_eq_true,
    decide_eq_true_eq, ← isLess]
  refine and_congr_right fun isWhole => ?_
  rw [Magnitude.value_eq_wholePart isWhole]
  rfl

theorem stands_real {magnitude : Magnitude} (isSize : spelling.ReadsSize magnitude) :
    Stands spelling (.real (.number spelling.negative magnitude)) magnitude := by
  have finite : magnitude.isInfinite = false :=
    eq_false_of_ne_true (Magnitude.isInfinite_iff.not.mpr isSize.ne_infinity)
  have isWhole := writesWhole_iff finite
  constructor
  case isBinary64 => rfl
  case finite => exact isSize.ne_infinity
  case isWhole =>
    intro whole isWritten
    rw [writtenWhole?] at isWritten
    split at isWritten
    · rename_i writes
      have ⟨isWhole, small⟩ := isWhole.mp writes
      cases isWritten
      rw [← Magnitude.value_eq_wholePart isWhole]
      exact ⟨Magnitude.isNearest_value _, small⟩
    · cases isWritten
  case notWhole =>
    intro notWritten
    rw [writtenWhole?] at notWritten
    split at notWritten
    · cases notWritten
    · rename_i notWrites
      rw [isWhole, not_and_or, not_lt, Bool.not_eq_true] at notWrites
      exact notWrites
  case isText =>
    rw [numberText, writtenWhole?]
    split
    · rw [toList_signed, decimalText, String.toList_ofList]
    · rw [Number.write, DecimalStyle.write, String.toList_ofList, DecimalStyle.characters, finite,
        if_neg Bool.false_ne_true, signText]

theorem exists_stands (reads : spelling.Reads number) :
    ∃ magnitude, Stands spelling number magnitude := by
  cases reads with
  | whole isWhole => exact ⟨_, stands_whole isWhole⟩
  | real _ isSize => exact ⟨_, stands_real isSize⟩

end Stands

/-! The text of a number against the one of a script. -/

section WrittenAlike

variable {spelling : Spelling} {number : Json.Number} {magnitude : Magnitude}
  (stands : Stands spelling number magnitude)

include stands

theorem Stands.readNumericPrefix_eq :
    readNumericPrefix (numberText number).toList = .number spelling.negative magnitude := by
  rw [stands.isText]
  cases written : writtenWhole? number with
  | none =>
      have ⟨value, isUnsigned, isNearest⟩ := Json.Number.realStyle.exists_unsigned magnitude
      exact isUnsigned.readNumericPrefix_eq isNearest spelling.negative
  | some whole =>
      exact (NumberWord.unsigned_decimalDigits whole).readNumericPrefix_eq
        (stands.isWhole written).1 spelling.negative

theorem Stands.writtenWhole?_zero (isZero : magnitude = .zero) : writtenWhole? number = some 0 := by
  subst isZero
  cases written : writtenWhole? number with
  | none =>
      rcases stands.notWhole written with fraction | large
      · have isWhole : Magnitude.zero.isWhole = true := by decide +kernel
        exact absurd (isWhole.symm.trans fraction) Bool.noConfusion
      · rw [Magnitude.value_zero] at large
        exact absurd large (not_le.mpr (Decimal.ten_zpow_pos _))
  | some whole =>
      rcases Nat.eq_zero_or_pos whole with rfl | positive
      · rfl
      · exact absurd rfl ((stands.isWhole written).1.ne_zero positive)

theorem Stands.writtenAlike_iff_of_zero (isZero : magnitude = .zero) :
    IsScriptText (.number spelling.negative magnitude) (numberText number).toList ↔
      WrittenAlike number magnitude := by
  have written := stands.writtenWhole?_zero isZero
  subst isZero
  have noMinus : signText spelling.negative ++ decimalDigits 0 = ['0'] ↔
      number.toBinary64 ≠ .number true .zero := by
    rw [stands.isBinary64]
    cases spelling.negative <;> decide
  rw [isScriptText_zero_iff, stands.isText, written, noMinus]
  constructor
  · intro notNegativeZero
    refine ⟨notNegativeZero, fun isWritten => ?_, fun isNone => ?_⟩
    · cases written.symm.trans isWritten
      exact ⟨⟨0, 0⟩, Decimal.isShortest_zero, by rw [Decimal.value, Nat.cast_zero, zero_mul]⟩
    · cases written.symm.trans isNone
  · exact fun alike => alike.notNegativeZero

theorem Stands.writtenAlike_iff_of_ne_zero (notZero : magnitude ≠ .zero) :
    IsScriptText (.number spelling.negative magnitude) (numberText number).toList ↔
      WrittenAlike number magnitude := by
  have ⟨decimal, isShortest, _⟩ := Magnitude.exists_isShortest notZero
  have notNegativeZero : number.toBinary64 ≠ .number true .zero := by
    rw [stands.isBinary64]
    intro same
    exact notZero (Binary64.number.inj same).2
  rw [stands.isText, isScriptText_iff notZero stands.finite isShortest]
  cases written : writtenWhole? number with
  | none =>
      rw [realStyle_eq_scriptDigits_iff notZero isShortest (stands.notWhole written)]
      constructor
      · intro notMillionths
        refine ⟨notNegativeZero, fun isWritten => ?_, fun _ _ otherShortest => ?_⟩
        · cases written.symm.trans isWritten
        · rwa [otherShortest.unique notZero isShortest]
      · exact fun alike => alike.notMillionths written isShortest
  | some whole =>
      have ⟨readsBack, small⟩ := stands.isWhole written
      have positive : 0 < whole := by
        refine Nat.pos_of_ne_zero fun isZero => notZero ?_
        rw [isZero, Nat.cast_zero, ← Magnitude.value_zero] at readsBack
        exact readsBack.unique Magnitude.zero.isNearest_value
      rw [scriptDigits_eq_decimalDigits_iff readsBack positive isShortest small]
      constructor
      · intro same
        refine ⟨notNegativeZero, fun isWritten => ?_, fun isNone => ?_⟩
        · cases written.symm.trans isWritten
          exact ⟨decimal, isShortest, same⟩
        · cases written.symm.trans isNone
      · intro alike
        have ⟨other, otherShortest, same⟩ := alike.fewestDigits written
        rwa [otherShortest.unique notZero isShortest] at same

theorem Stands.isScriptText_numberText_iff :
    IsScriptText (.number spelling.negative magnitude) (numberText number).toList ↔
      WrittenAlike number magnitude := by
  by_cases isZero : magnitude = .zero
  · exact stands.writtenAlike_iff_of_zero isZero
  · exact stands.writtenAlike_iff_of_ne_zero isZero

/-- Both texts are read back, so that they differ where a script reads another double. -/
theorem Stands.hasScriptText_numberText_iff :
    spelling.HasScriptText (numberText number).toList ↔
      magnitude.IsNearest spelling.decimal.value ∧ WrittenAlike number magnitude := by
  rw [← stands.isScriptText_numberText_iff]
  constructor
  · rintro ⟨_, ⟨other, rfl, isNearest⟩, isText⟩
    have ⟨sign, isRead⟩ := isText.exists_readNumericPrefix_eq
    rw [stands.readNumericPrefix_eq] at isRead
    cases isRead
    exact ⟨isNearest, isText⟩
  · rintro ⟨isNearest, isText⟩
    exact ⟨_, ⟨magnitude, rfl, isNearest⟩, isText⟩

/-- Whole numbers below 2^53 are written like this, unless they are a zero with a minus. -/
theorem Stands.writtenAlike_of_lt {whole : Nat} (written : writtenWhole? number = some whole)
    (exact : whole < 2 * Magnitude.stepsPerBinade)
    (notNegativeZero : number.toBinary64 ≠ .number true .zero) : WrittenAlike number magnitude := by
  have readsBack := (stands.isWhole written).1
  refine ⟨notNegativeZero, fun isWritten => ?_, fun isNone => ?_⟩
  · cases written.symm.trans isWritten
    rcases Nat.eq_zero_or_pos whole with rfl | positive
    · rw [Nat.cast_zero, ← Magnitude.value_zero] at readsBack
      rw [readsBack.unique Magnitude.zero.isNearest_value]
      exact ⟨⟨0, 0⟩, Decimal.isShortest_zero, by rw [Decimal.value, Nat.cast_zero, zero_mul]⟩
    · have notZero := readsBack.ne_zero positive
      rcases Magnitude.exists_isShortest notZero with ⟨decimal, isShortest, _⟩
      exact ⟨decimal, isShortest, value_eq_whole readsBack positive isShortest exact⟩
  · cases written.symm.trans isNone

end WrittenAlike

theorem value?_labels {item : Item} {sample : Sample} (isSample : item.sample = .ok sample)
    (name : String) :
    sample.labels.value? name = (lastNamed? name item.metric).map labelText := by
  rw [Item.sample, bind_eq_ok_iff] at isSample
  rcases isSample with ⟨_, _, ⟨⟩⟩
  rw [Labels.value?, Item.labels, Labels.ofList, Entries.find?_ofList, lastNamed?_map]

/-- A number that is the value of a label becomes a text. It is the text of a script exactly for
numbers that are written alike and of which the nearest double was read. -/
theorem numberLabel_iff_writtenAlike {body : List UInt8} {elements : List Value}
    {samples : List Sample} (lists : Lists body elements)
    (parsed : parse body = .ok (some samples)) {index : Nat} {element : Value} {item : Item}
    {name : String} {number : Json.Number} {spelling : Spelling}
    (isElement : elements[index]? = some element) (isItem : Item.ofValue element = .ok item)
    (isLabel : lastNamed? name item.metric = some (.number number))
    (reads : spelling.Reads number) :
    ∃ sample text magnitude, samples[index]? = some sample ∧
      sample.labels.value? name = some text ∧
      number.toBinary64 = .number spelling.negative magnitude ∧
      (spelling.RoundsOnce → magnitude.IsNearest spelling.decimal.value) ∧
      (spelling.HasScriptText text.toList ↔
        magnitude.IsNearest spelling.decimal.value ∧ WrittenAlike number magnitude) := by
  have given := ((parse_eq_ok_some_iff lists).mp parsed).2
  have ⟨inElements, isElement⟩ := List.getElem?_eq_some_iff.mp isElement
  have inSamples : index < samples.length := given.length_eq ▸ inElements
  have ⟨other, isOther, isSample⟩ := given.get inElements inSamples
  rw [List.get_eq_getElem, isElement, isItem] at isOther
  cases isOther
  have ⟨magnitude, stands⟩ := exists_stands reads
  refine ⟨samples[index], numberText number, magnitude, List.getElem?_eq_getElem inSamples, ?_,
    stands.isBinary64, fun once => ?_, stands.hasScriptText_numberText_iff⟩
  · rw [List.get_eq_getElem] at isSample
    rw [value?_labels isSample, isLabel, Option.map_some, labelText]
  · have ⟨nearest, isBinary64, isNearest⟩ := reads.exists_isNearest once
    cases stands.isBinary64.symm.trans isBinary64
    exact isNearest

/-! A status code is a whole number. -/

def statusCodeElement : Value :=
  .object [("metric", .object [("code", .number (.whole 200))]),
    ("value", .array [.number (.whole 7), .text "1"])]

def statusCodeAnswer : Value :=
  .object [("status", .text "success"), ("data", .object [("result", .array [statusCodeElement])])]

theorem statusCodeAnswer_lists :
    Lists (Utf8.encode statusCodeAnswer.write) [statusCodeElement] := by
  have metric : (Value.object [("code", .number (.whole 200))]).IsWhole :=
    .object (List.forall_mem_singleton.mpr (.number (by decide) (by decide)))
  have pair : (Value.array [.number (.whole 7), .text "1"]).IsWhole := by
    apply Value.IsWhole.array
    simp only [List.forall_mem_cons]
    exact ⟨.number (by decide) (by decide), .text "1", nofun⟩
  have element : statusCodeElement.IsWhole := by
    apply Value.IsWhole.object
    simp only [List.forall_mem_cons]
    exact ⟨metric, pair, nofun⟩
  have data : (Value.object [("result", .array [statusCodeElement])]).IsWhole :=
    .object (List.forall_mem_singleton.mpr (.array (List.forall_mem_singleton.mpr element)))
  have isWhole : statusCodeAnswer.IsWhole := by
    apply Value.IsWhole.object
    simp only [List.forall_mem_cons]
    exact ⟨.text "success", data, nofun⟩
  rw [Lists, Grammar.ofBytes_write isWhole]
  exact ⟨_, _, rfl, rfl, rfl, .inl rfl, rfl⟩

theorem hasScriptText_statusCode :
    ∃ samples sample text, parse (Utf8.encode statusCodeAnswer.write) = .ok (some samples) ∧
      samples[0]? = some sample ∧ sample.labels.value? "code" = some text ∧
      Spelling.HasScriptText ⟨false, ['2', '0', '0'], none, none⟩ text.toList := by
  have isWhole : Spelling.ReadsWhole ⟨false, ['2', '0', '0'], none, none⟩ 200 :=
    .natural rfl rfl rfl (by decide)
  have ⟨samples, parsed, _⟩ := @exists_of_okSomeWith _ _ (fun _ => true)
    (parse (Utf8.encode statusCodeAnswer.write)) (by decide +kernel)
  have ⟨sample, text, magnitude, isSample, isText, isBinary64, isNearest, alike⟩ :=
    @numberLabel_iff_writtenAlike _ _ _ statusCodeAnswer_lists parsed 0 _ _ "code" _ _ rfl rfl rfl
      (.whole isWhole)
  refine ⟨samples, sample, text, parsed, isSample, isText,
    alike.mpr ⟨isNearest (.whole isWhole), ?_⟩⟩
  have stands := stands_whole isWhole
  have same := (Binary64.number.inj (isBinary64.symm.trans stands.isBinary64)).2
  rw [same]
  exact stands.writtenAlike_of_lt rfl (by decide) (by decide)

/-! Numbers that a script gives other texts for. -/

def oddNumbers : List UInt8 :=
  Utf8.encode ("\x7b\"status\":\"success\",\"data\":\x7b\"result\":[" ++
    "\x7b\"metric\":\x7b\"zero\":-0,\"small\":0.000002,\"large\":9223372036854775808\x7d," ++
    "\"value\":[1,\"1\"]\x7d]\x7d\x7d").toList

def minusZero : Spelling :=
  ⟨true, ['0'], none, none⟩

def twoMillionths : Spelling :=
  ⟨false, ['0'], some ['0', '0', '0', '0', '0', '2'], none⟩

def beyondSigned : Spelling :=
  ⟨false, "9223372036854775808".toList, none, none⟩

theorem oddNumbers_notScriptText :
    (∃ samples, parse oddNumbers = .ok (some samples) ∧
      samples.map (fun sample => sample.labels.entries) =
        [[("large", "9223372036854775808"), ("small", "2e-6"), ("zero", "-0")]]) ∧
      (minusZero.HasScriptText "0".toList ∧ ¬minusZero.HasScriptText "-0".toList) ∧
      (twoMillionths.HasScriptText "0.000002".toList ∧
        ¬twoMillionths.HasScriptText "2e-6".toList) ∧
      beyondSigned.HasScriptText "9223372036854776000".toList ∧
        ¬beyondSigned.HasScriptText "9223372036854775808".toList := by
  have otherText : ∀ {spelling : Spelling} {script label : List Char},
      spelling.HasScriptText script → script ≠ label → ¬spelling.HasScriptText label :=
    fun isScript different isLabel => different (isScript.unique isLabel)
  have ⟨samples, parsed, isLabels⟩ := @exists_of_okSomeWith _ _
    (fun samples => samples.map (fun sample => sample.labels.entries) ==
      [[("large", "9223372036854775808"), ("small", "2e-6"), ("zero", "-0")]])
    (parse oddNumbers) (by decide +kernel)
  have zero : minusZero.HasScriptText "0".toList :=
    Spelling.hasScriptText_zero (by decide +kernel)
  have small : twoMillionths.HasScriptText "0.000002".toList := by
    have isText := @Spelling.hasScriptText_shortest twoMillionths (by decide +kernel)
      (by decide +kernel) (by decide +kernel)
    have isScript : signText twoMillionths.negative ++ scriptDigits
        (decimalDigits (twoMillionths.decimal.magnitude.shortest .toEven).coefficient)
        ((twoMillionths.decimal.magnitude.shortest .toEven).leadingExponent + 1) =
          "0.000002".toList := by decide +kernel
    rwa [isScript] at isText
  have large : beyondSigned.HasScriptText "9223372036854776000".toList := by
    have isText := @Spelling.hasScriptText_shortest beyondSigned (by decide +kernel)
      (by decide +kernel) (by decide +kernel)
    have isScript : signText beyondSigned.negative ++ scriptDigits
        (decimalDigits (beyondSigned.decimal.magnitude.shortest .toEven).coefficient)
        ((beyondSigned.decimal.magnitude.shortest .toEven).leadingExponent + 1) =
          "9223372036854776000".toList := by decide +kernel
    rwa [isScript] at isText
  exact ⟨⟨samples, parsed, beq_iff_eq.mp isLabels⟩, ⟨zero, otherText zero (by decide)⟩,
    ⟨small, otherText small (by decide)⟩, large, otherText large (by decide)⟩

end Response

end MetricWatch
