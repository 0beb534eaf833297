import MetricWatch.Number.NumericScan
import MetricWatch.Proofs.Number.NumericPrefix
import MetricWatch.Proofs.Text.Place

namespace MetricWatch.NumericScan

/-! No text leads a scan to a place that it does not have. Every part of a numeral that is split off
the characters is passed on the bytes as well, and the place is always in front of the rest that is
still to be split. So the scan is never lost, and what it cuts off in the end is a numeral. -/

open Utf8 (IsAsciiOnly isAsciiOnly_beq StandsBefore standsBefore_start)
open Json.Grammar (Sign Exponent)
open Numeral (splitSign splitDigits splitFraction splitExponent)
open NumberWord (IsWord Mantissa Unsigned)

theorem isAsciiOnly_isDecimalDigit : IsAsciiOnly isDecimalDigit := by
  intro character isDigit
  rw [isDecimalDigit, Bool.and_eq_true, decide_eq_true_eq, decide_eq_true_eq] at isDigit
  exact Nat.lt_of_le_of_lt (show character.toNat ≤ '9'.toNat from isDigit.2) (by decide)

theorem isAsciiOnly_isSign : IsAsciiOnly isSign :=
  (isAsciiOnly_beq (by decide)).or (isAsciiOnly_beq (by decide))

theorem isAsciiOnly_isPoint : IsAsciiOnly isPoint :=
  isAsciiOnly_beq (by decide)

theorem isAsciiOnly_isMinus : IsAsciiOnly isMinus :=
  isAsciiOnly_beq (by decide)

theorem isAsciiOnly_isExponentMark : IsAsciiOnly isExponentMark :=
  (isAsciiOnly_beq (by decide)).or (isAsciiOnly_beq (by decide))

/-! What is split off behind a point or the mark of an exponent. -/

theorem splitFraction_point (wholeIsEmpty : Bool) (behind : List Char) :
    splitFraction wholeIsEmpty ('.' :: behind) =
      if wholeIsEmpty && (splitDigits behind).1.isEmpty then ([], '.' :: behind)
      else splitDigits behind :=
  rfl

theorem splitFraction_of_not_point {wholeIsEmpty : Bool} {first : Char} {behind : List Char}
    (hasNot : ¬isPoint first = true) :
    splitFraction wholeIsEmpty (first :: behind) = ([], first :: behind) := by
  rcases Numeral.exists_of_splitFraction wholeIsEmpty (first :: behind) with
    nothing | ⟨_, _, isText, _⟩
  · exact nothing
  · exact absurd (beq_iff_eq.mpr (List.cons.inj isText).1) hasNot

theorem splitExponent_mark {mark : Char} (has : isExponentMark mark = true) (behind : List Char) :
    (splitExponent (mark :: behind)).2 =
      if (splitDigits (splitSign behind).2).1.isEmpty then mark :: behind
      else (splitDigits (splitSign behind).2).2 := by
  have isMark : (mark == 'e' || mark == 'E') = true := has
  simp only [splitExponent, isMark, if_true]
  split <;> rfl

theorem splitExponent_of_not_mark {mark : Char} {behind : List Char}
    (hasNot : ¬isExponentMark mark = true) :
    splitExponent (mark :: behind) = (0, mark :: behind) :=
  if_neg hasNot

/-! The parts of a numeral, passed on the bytes of a text. -/

section Parts

variable {text rest : List Char} {place : Nat} (stands : StandsBefore text place rest)

include stands

theorem standsBefore_afterSign :
    StandsBefore text (afterSign (Utf8.encode text) place) (splitSign rest).2 := by
  rw [afterSign, stands.isAt_eq isAsciiOnly_isSign]
  cases rest with
  | nil => exact stands
  | cons first behind =>
      rw [List.head?_cons, Option.any_some]
      by_cases has : isSign first = true
      · have isBehind : (splitSign (first :: behind)).2 = behind := by
          rw [isSign, Bool.or_eq_true, beq_iff_eq, beq_iff_eq] at has
          rcases has with rfl | rfl <;> rfl
        rw [if_pos has, isBehind]
        exact stands.next isAsciiOnly_isSign rfl has
      · have unmarked : ∀ other ∈ (first :: behind).head?, other ≠ '-' ∧ other ≠ '+' := by
          rintro _ ⟨⟩
          rw [isSign, Bool.or_eq_true, beq_iff_eq, beq_iff_eq, not_or] at has
          exact has.symm
        have isSplit := Numeral.splitSign_append .absent unmarked
        rw [List.nil_append] at isSplit
        rw [if_neg has, isSplit]
        exact stands

theorem countDigits_eq :
    countDigits (Utf8.encode text) place = .ok (splitDigits rest).1.length := by
  rw [countDigits, stands.bytesFrom_eq]
  exact congrArg Except.ok (Utf8.length_takeWhile_encode isAsciiOnly_isDecimalDigit rest)

theorem standsBefore_digits :
    StandsBefore text (place + (splitDigits rest).1.length) (splitDigits rest).2 :=
  stands.advance isAsciiOnly_isDecimalDigit List.takeWhile_append_dropWhile.symm
    (Numeral.isDecimalDigit_of_takeWhile rest)

theorem exists_afterFraction (whole : List Char) :
    ∃ finish, afterFraction (Utf8.encode text) whole.length place =
        .ok ((splitFraction whole.isEmpty rest).1.length, finish) ∧
      StandsBefore text finish (splitFraction whole.isEmpty rest).2 := by
  rw [afterFraction, stands.isAt_eq isAsciiOnly_isPoint]
  cases rest with
  | nil => exact ⟨place, rfl, stands⟩
  | cons first behind =>
      rw [List.head?_cons, Option.any_some]
      by_cases has : isPoint first = true
      · have next := stands.next isAsciiOnly_isPoint rfl has
        obtain rfl : first = '.' := eq_of_beq has
        rw [if_pos has, countDigits_eq next, splitFraction_point]
        by_cases alone : (whole.isEmpty && (splitDigits behind).1.isEmpty) = true
        · have isAlone := alone
          rw [Bool.and_eq_true, List.isEmpty_iff, List.isEmpty_iff] at isAlone
          rw [if_pos alone, isAlone.1, isAlone.2]
          exact ⟨place, rfl, stands⟩
        · have counts : 0 < whole.length ∨ 0 < (splitDigits behind).1.length := by
            rw [Bool.and_eq_true, List.isEmpty_iff, List.isEmpty_iff, not_and_or] at alone
            exact alone.imp List.length_pos_iff.mpr List.length_pos_iff.mpr
          rw [if_neg alone]
          refine ⟨_, ?_, standsBefore_digits next⟩
          exact congrArg (fun finish => Except.ok (_, finish)) (if_pos counts)
      · rw [if_neg has, splitFraction_of_not_point has]
        exact ⟨place, rfl, stands⟩

theorem exists_afterExponent : ∃ finish, afterExponent (Utf8.encode text) place = .ok finish ∧
    StandsBefore text finish (splitExponent rest).2 := by
  rw [afterExponent, stands.isAt_eq isAsciiOnly_isExponentMark]
  cases rest with
  | nil => exact ⟨place, rfl, stands⟩
  | cons mark behind =>
      rw [List.head?_cons, Option.any_some]
      by_cases has : isExponentMark mark = true
      · have unsigned := standsBefore_afterSign (stands.next isAsciiOnly_isExponentMark rfl has)
        simp only [if_pos has, countDigits_eq unsigned, splitExponent_mark has]
        by_cases noDigits : (splitDigits (splitSign behind).2).1 = []
        · rw [noDigits]
          exact ⟨place, rfl, stands⟩
        · rw [if_neg (List.isEmpty_iff.not.mpr noDigits)]
          refine ⟨_, ?_, standsBefore_digits unsigned⟩
          exact congrArg Except.ok (if_pos (List.length_pos_iff.mpr noDigits))
      · rw [if_neg has, splitExponent_of_not_mark has]
        exact ⟨place, rfl, stands⟩

/-- The digits are passed on both sides of the point. -/
theorem exists_numeralFrom_eq {whole afterWhole fraction afterPoint : List Char}
    (isWhole : splitDigits rest = (whole, afterWhole))
    (isFraction : splitFraction whole.isEmpty afterWhole = (fraction, afterPoint)) :
    ∃ middle, StandsBefore text middle afterPoint ∧ numeralFrom text place =
      if whole.length = 0 ∧ fraction.length = 0 then .ok .noDigits
      else do
        let finish ← afterExponent (Utf8.encode text) middle
        let parts ← Utf8.cut text finish
        return .numeral finish (readNumber? parts.1) := by
  have behindWhole := standsBefore_digits stands
  have count := countDigits_eq stands
  rw [isWhole] at behindWhole count
  have ⟨middle, isPassed, behindPoint⟩ := exists_afterFraction behindWhole whole
  rw [isFraction] at isPassed behindPoint
  refine ⟨middle, behindPoint, ?_⟩
  rw [numeralFrom, count]
  change (afterFraction (Utf8.encode text) whole.length (place + whole.length) >>= _) = _
  rw [isPassed]
  rfl

/-- Without a numeral there are no digits. -/
theorem numeralFrom_of_none (notFound : Numeral.split? rest = none) :
    numeralFrom text place = .ok .noDigits := by
  obtain ⟨whole, afterWhole, isWhole⟩ : ∃ whole afterWhole,
      splitDigits rest = (whole, afterWhole) := ⟨_, _, rfl⟩
  obtain ⟨fraction, afterPoint, isFraction⟩ : ∃ fraction afterPoint,
      splitFraction whole.isEmpty afterWhole = (fraction, afterPoint) := ⟨_, _, rfl⟩
  have ⟨middle, _, isPassed⟩ := exists_numeralFrom_eq stands isWhole isFraction
  rw [Numeral.split?_eq isWhole isFraction] at notFound
  split at notFound
  · rename_i noDigits
    rw [Bool.and_eq_true, List.isEmpty_iff_length_eq_zero, List.isEmpty_iff_length_eq_zero]
      at noDigits
    rw [isPassed, if_pos noDigits]
  · cases notFound

/-- A numeral is passed, and nothing else. -/
theorem exists_numeralFrom_of_some {numeral : Numeral} {remaining : List Char}
    (found : Numeral.split? rest = some (numeral, remaining)) :
    ∃ word, text = word ++ remaining ∧
      numeralFrom text place = .ok (.numeral (Utf8.encode word).length (readNumber? word)) := by
  obtain ⟨whole, afterWhole, isWhole⟩ : ∃ whole afterWhole,
      splitDigits rest = (whole, afterWhole) := ⟨_, _, rfl⟩
  obtain ⟨fraction, afterPoint, isFraction⟩ : ∃ fraction afterPoint,
      splitFraction whole.isEmpty afterWhole = (fraction, afterPoint) := ⟨_, _, rfl⟩
  have ⟨middle, behindPoint, isPassed⟩ := exists_numeralFrom_eq stands isWhole isFraction
  rw [Numeral.split?_eq isWhole isFraction] at found
  split at found
  · cases found
  · rename_i someDigits
    rw [Bool.and_eq_true, List.isEmpty_iff_length_eq_zero, List.isEmpty_iff_length_eq_zero]
      at someDigits
    have ⟨finish, isFinish, behindNumeral⟩ := exists_afterExponent behindPoint
    cases found
    have ⟨word, isText, isCut⟩ := behindNumeral.exists_cut
    have isPlace := (Utf8.cut_eq_ok_iff.mp isCut).2
    refine ⟨word, isText, ?_⟩
    rw [isPassed, if_neg someDigits, isFinish, isPlace]
    change (Utf8.cut text finish >>= _) = _
    rw [isCut]
    rfl

end Parts

/-! The sign, and what may follow it. -/

section Trimmed

variable {text : List Char}

theorem standsBefore_unsigned (text : List Char) :
    StandsBefore text (afterSign (Utf8.encode text) 0) (splitSign text).2 :=
  standsBefore_afterSign (standsBefore_start text)

theorem ofTrimmed_eq (text : List Char) : ofTrimmed text =
    if infinityWord.isPrefixOf (splitSign text).2 then do
      let first ← Utf8.byteAt (Utf8.encode text) 0
      return .infinity (Utf8.isCharacter isMinus first)
    else numeralFrom text (afterSign (Utf8.encode text) 0) := by
  have ⟨_, _, isCut⟩ := (standsBefore_unsigned text).exists_cut
  rw [ofTrimmed]
  change (Utf8.cut text (afterSign (Utf8.encode text) 0) >>= _) = _
  rw [isCut]
  rfl

theorem fst_splitSign (first : Char) (behind : List Char) :
    (splitSign (first :: behind)).1 = isMinus first := by
  by_cases has : first = '-'
  · rw [has]
    rfl
  · have hasNot : isMinus first = false := beq_false_of_ne has
    rw [hasNot]
    unfold splitSign
    split
    · rename_i isText
      exact absurd (List.cons.inj isText).1 has
    · rfl
    · rfl

theorem ofTrimmed_of_infinity (isInfinity : infinityWord <+: (splitSign text).2) :
    ofTrimmed text = .ok (.infinity (splitSign text).1) := by
  rw [ofTrimmed_eq, if_pos (List.isPrefixOf_iff_prefix.mpr isInfinity)]
  cases text with
  | nil => cases isInfinity.length_le
  | cons first behind =>
      have ⟨byte, isByte, isTold⟩ :=
        (standsBefore_start (first :: behind)).exists_byteAt isAsciiOnly_isMinus rfl
      rw [isByte, fst_splitSign, ← isTold]
      rfl

theorem ofTrimmed_of_not_infinity (notInfinity : ¬infinityWord <+: (splitSign text).2) :
    ofTrimmed text = numeralFrom text (afterSign (Utf8.encode text) 0) := by
  rw [ofTrimmed_eq, if_neg fun isPrefix => notInfinity (List.isPrefixOf_iff_prefix.mp isPrefix)]

end Trimmed

/-- A sign and a numeral are a number as a whole. -/
theorem readNumber?_word {sign : Int} {exponent : Option Int}
    {signText whole fraction mantissaText exponentText : List Char} (isSign : Sign sign signText)
    (isMantissa : Mantissa whole fraction mantissaText)
    (isExponent : Exponent exponent exponentText) :
    readNumber? (signText ++ (mantissaText ++ exponentText)) =
      some (.number (decide (sign < 0))
        (Numeral.mk whole fraction (exponent.getD 0)).decimal.magnitude) := by
  have unmarked := (Unsigned.numeral isMantissa isExponent).unmarked []
  rw [List.append_nil] at unmarked
  rw [readNumber?, Numeral.splitSign_append isSign unmarked]
  simp only [Numeral.split?_numeral isMantissa isExponent]

/-- What a scan comes to that does not go wrong. It has the number of the text, which is no number
only where there are no digits. Otherwise what it has passed is a word for the number. -/
structure IsSound (text : List Char) (number : Binary64) (scan : NumericScan) : Prop where
  isNumber : scan.number = number
  isNan : scan.number = .nan ↔ scan = .noDigits
  withoutDigits : scan = .noDigits → ∀ word, word <+: text → ¬IsWord word
  isParsed : ∀ {finish number?}, scan = .numeral finish number? → ∃ word rest found,
    text = word ++ rest ∧ (Utf8.encode word).length = finish ∧ IsWord word ∧
      readNumber? word = some found ∧ number? = some found

theorem isSound_infinity (text : List Char) (negative : Bool) :
    IsSound text (.number negative .infinity) (.infinity negative) := by
  constructor
  case isNumber => rfl
  case isNan => constructor <;> rintro ⟨⟩
  case withoutDigits => rintro ⟨⟩
  case isParsed => rintro _ _ ⟨⟩

section Numeral

variable {text remaining : List Char} {spelled : Numeral}
  (notInfinity : ¬infinityWord <+: (splitSign text).2)

include notInfinity

theorem isSound_noDigits (notFound : Numeral.split? (splitSign text).2 = none) :
    IsSound text (NumberWord.readSigned text) .noDigits := by
  have isNan : NumberWord.readSigned text = .nan := by
    rw [NumberWord.readSigned, readUnsignedPrefix,
      if_neg fun isPrefix => notInfinity (List.isPrefixOf_iff_prefix.mp isPrefix), notFound]
  constructor
  case isNumber => exact isNan.symm
  case isNan => exact iff_of_true rfl rfl
  case withoutDigits =>
    intro _
    rcases NumberWord.readSigned_cases text with ⟨_, _, _, _, _, _, _, isNumber⟩ | ⟨noWord, _⟩
    · cases isNan.symm.trans isNumber
    · exact noWord
  case isParsed => rintro _ _ ⟨⟩

theorem isSound_numeral {word : List Char} (isText : text = word ++ remaining)
    (found : Numeral.split? (splitSign text).2 = some (spelled, remaining)) :
    IsSound text (NumberWord.readSigned text)
      (.numeral (Utf8.encode word).length (readNumber? word)) := by
  obtain ⟨sign, signText, unsigned, isSign, isSigned, isSplit⟩ := Numeral.exists_of_splitSign text
  rw [isSplit] at found notInfinity
  dsimp only at found notInfinity
  obtain ⟨mantissaText, exponent, exponentText, isUnsigned, isMantissa, isExponent, isValue⟩ :=
    Numeral.exists_of_split? found
  have isWord : word = signText ++ (mantissaText ++ exponentText) := by
    rw [isSigned, isUnsigned, ← List.append_assoc] at isText
    exact (List.append_cancel_right isText).symm
  have isRead := readNumber?_word isSign isMantissa isExponent
  rw [← isWord, ← isValue] at isRead
  have isNumber : NumberWord.readSigned text =
      .number (decide (sign < 0)) spelled.decimal.magnitude := by
    rw [NumberWord.readSigned, isSplit, readUnsignedPrefix,
      if_neg fun isPrefix => notInfinity (List.isPrefixOf_iff_prefix.mp isPrefix), found]
  rw [isRead]
  constructor
  case isNumber => exact isNumber.symm
  case isNan => constructor <;> rintro ⟨⟩
  case withoutDigits => rintro ⟨⟩
  case isParsed =>
    rintro _ _ ⟨⟩
    refine ⟨word, remaining, _, isText, rfl, ?_, isRead, rfl⟩
    rw [isWord]
    exact ⟨_, _, .of isSign (.numeral isMantissa isExponent)⟩

end Numeral

theorem exists_ofTrimmed (text : List Char) :
    ∃ scan, ofTrimmed text = .ok scan ∧ IsSound text (NumberWord.readSigned text) scan := by
  have stands := standsBefore_unsigned text
  by_cases isInfinity : infinityWord <+: (splitSign text).2
  · have isNumber : NumberWord.readSigned text = .number (splitSign text).1 .infinity :=
      if_pos (List.isPrefixOf_iff_prefix.mpr isInfinity)
    rw [isNumber]
    exact ⟨_, ofTrimmed_of_infinity isInfinity, isSound_infinity text _⟩
  · rw [ofTrimmed_of_not_infinity isInfinity]
    cases found : Numeral.split? (splitSign text).2 with
    | none => exact ⟨_, numeralFrom_of_none stands found, isSound_noDigits isInfinity found⟩
    | some split =>
        have ⟨word, isText, isPassed⟩ := exists_numeralFrom_of_some stands found
        exact ⟨_, isPassed, isSound_numeral isInfinity isText found⟩

/-- No text leads a scan astray: every place is within the text and behind a character, and what is
cut off can be read as a number. -/
theorem exists_ofText (text : List Char) : ∃ scan, ofText text = .ok scan ∧
    IsSound (trimStart text) (readNumericPrefix text) scan := by
  rw [ofText, readNumericPrefix]
  split
  · exact ⟨_, rfl, isSound_infinity _ false⟩
  · split
    · exact ⟨_, rfl, isSound_infinity _ true⟩
    · exact exists_ofTrimmed (trimStart text)

end MetricWatch.NumericScan
