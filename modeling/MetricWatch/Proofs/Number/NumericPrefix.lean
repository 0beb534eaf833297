import MetricWatch.Number.NumericPrefix
import MetricWatch.Proofs.Json.Grammar
import MetricWatch.Proofs.Number.DecimalValue

namespace MetricWatch

/-! The words that are read as numbers, and what they stand for. Signs and exponents are those of
the numbers of a document. -/

namespace NumberWord

open Json.Grammar (Digits Sign Exponent)

/-- What a word stands for, apart from its sign. -/
inductive Size where
  | infinite
  | finite (value : ℚ)

/-- The digits before and behind the point, at least one of them. -/
inductive Mantissa : List Char → List Char → List Char → Prop
  | whole {whole : List Char} : whole ≠ [] → Digits whole → Mantissa whole [] whole
  | pointed {whole fraction : List Char} : whole ≠ [] → Digits whole → Digits fraction →
      Mantissa whole fraction (whole ++ '.' :: fraction)
  | fraction {fraction : List Char} : fraction ≠ [] → Digits fraction →
      Mantissa [] fraction ('.' :: fraction)

/-- The number that a mantissa and an exponent stand for. -/
def numeralValue (whole fraction : List Char) (exponent : Int) : ℚ :=
  (digitsValue whole + digitsValue fraction / 10 ^ fraction.length) * 10 ^ exponent

inductive Unsigned : Size → List Char → Prop
  | infinity : Unsigned .infinite infinityWord
  | numeral {whole fraction mantissaText exponentText : List Char} {exponent : Option Int} :
      Mantissa whole fraction mantissaText → Exponent exponent exponentText →
        Unsigned (.finite (numeralValue whole fraction (exponent.getD 0)))
          (mantissaText ++ exponentText)

/-- The words with a sign or without. -/
inductive Word : Bool → Size → List Char → Prop
  | of {sign : Int} {size : Size} {signText text : List Char} : Sign sign signText →
      Unsigned size text → Word (decide (sign < 0)) size (signText ++ text)

def IsWord (text : List Char) : Prop :=
  ∃ negative size, Word negative size text

/-- The longest word at the start of a text. -/
structure IsLongest (word text : List Char) : Prop where
  isPrefix : word <+: text
  isWord : IsWord word
  longest : ∀ other, other <+: text → IsWord other → other.length ≤ word.length

/-- A magnitude is what a size is rounded to. -/
def Size.IsReadAs (size : Size) (magnitude : Magnitude) : Prop :=
  match size with
  | .infinite => magnitude = .infinity
  | .finite value => magnitude.IsNearest value

end NumberWord

/-! The digits of a numeral make up its value. -/

theorem Numeral.value_decimal (numeral : Numeral) : numeral.decimal.value =
    NumberWord.numeralValue numeral.whole numeral.fraction numeral.exponent := by
  have notZero : (10 : ℚ) ^ numeral.fraction.length ≠ 0 := by positivity
  rw [Decimal.value, decimal, NumberWord.numeralValue, digitsValue_append,
    zpow_sub₀ (by norm_num), zpow_natCast]
  push_cast
  field_simp

/-! The parts of a numeral, split off a text. What is split off is spelled as it should be. -/

namespace Numeral

open Json.Grammar (Digits Sign Exponent)
open NumberWord

theorem isDecimalDigit_of_takeWhile (text : List Char) :
    Digits (text.takeWhile isDecimalDigit) :=
  List.all_eq_true.mp List.all_takeWhile

theorem exists_of_splitFraction (wholeIsEmpty : Bool) (text : List Char) :
    splitFraction wholeIsEmpty text = ([], text) ∨
      ∃ digits rest, text = '.' :: (digits ++ rest) ∧ Digits digits ∧
        (wholeIsEmpty = true → digits ≠ []) ∧
        splitFraction wholeIsEmpty text = (digits, rest) := by
  unfold splitFraction
  split
  · rename_i rest
    simp only [splitDigits]
    by_cases isAlone : (wholeIsEmpty && (rest.takeWhile isDecimalDigit).isEmpty) = true
    · exact .inl (if_pos isAlone)
    · refine .inr ⟨rest.takeWhile isDecimalDigit, rest.dropWhile isDecimalDigit, ?_,
        isDecimalDigit_of_takeWhile rest, ?_, if_neg isAlone⟩
      · rw [List.takeWhile_append_dropWhile]
      · intro isEmpty noDigits
        exact isAlone (by rw [isEmpty, noDigits]; rfl)
  · exact .inl rfl

theorem exists_of_splitSign (text : List Char) :
    ∃ sign signText unsigned, Sign sign signText ∧ text = signText ++ unsigned ∧
      splitSign text = (decide (sign < 0), unsigned) := by
  unfold splitSign
  split
  · exact ⟨-1, ['-'], _, .minus, rfl, rfl⟩
  · exact ⟨1, ['+'], _, .plus, rfl, rfl⟩
  · exact ⟨1, [], _, .absent, rfl, rfl⟩

theorem exists_of_splitExponent (text : List Char) :
    splitExponent text = (0, text) ∨
      ∃ exponent exponentText rest, text = exponentText ++ rest ∧ exponentText ≠ [] ∧
        Exponent (some exponent) exponentText ∧ splitExponent text = (exponent, rest) := by
  unfold splitExponent
  split
  · rename_i mark rest
    split
    · rename_i isMark
      rw [Bool.or_eq_true, beq_iff_eq, beq_iff_eq] at isMark
      have ⟨sign, signText, unsigned, isSign, isText, isSplit⟩ := exists_of_splitSign rest
      simp only [isSplit, splitDigits, List.isEmpty_iff]
      by_cases noDigits : unsigned.takeWhile isDecimalDigit = []
      · exact .inl (if_pos noDigits)
      · have isExponent := Exponent.present isMark isSign noDigits
          (isDecimalDigit_of_takeWhile unsigned)
        refine .inr ⟨_, _, unsigned.dropWhile isDecimalDigit, ?_, List.cons_ne_nil _ _,
          isExponent, ?_⟩
        · rw [List.cons_append, List.append_assoc, List.takeWhile_append_dropWhile, isText]
        · rw [if_neg noDigits]
          cases isSign <;> simp
    · exact .inl rfl
  · exact .inl rfl

theorem exists_exponent (text : List Char) :
    ∃ exponent exponentText, text = exponentText ++ (splitExponent text).2 ∧
      Exponent exponent exponentText ∧ (splitExponent text).1 = exponent.getD 0 := by
  rcases exists_of_splitExponent text with nothing | ⟨exponent, exponentText, rest, split⟩
  · rw [nothing]
    exact ⟨none, [], rfl, .absent, rfl⟩
  · have ⟨isText, _, isExponent, isSplit⟩ := split
    rw [isSplit]
    exact ⟨some exponent, exponentText, isText, isExponent, rfl⟩

theorem exists_mantissa {whole afterWhole fraction afterFraction : List Char}
    (areDigits : Digits whole)
    (behindPoint : splitFraction whole.isEmpty afterWhole = (fraction, afterFraction))
    (notEmpty : ¬(whole = [] ∧ fraction = [])) :
    ∃ mantissaText, whole ++ afterWhole = mantissaText ++ afterFraction ∧
      Mantissa whole fraction mantissaText := by
  rcases exists_of_splitFraction whole.isEmpty afterWhole with nothing | split
  · rw [behindPoint, Prod.mk.injEq] at nothing
    rw [nothing.1] at notEmpty ⊢
    exact ⟨whole, by rw [nothing.2], .whole (fun isEmpty => notEmpty ⟨isEmpty, rfl⟩) areDigits⟩
  · have ⟨digits, rest, isText, furtherDigits, _, isSplit⟩ := split
    rw [behindPoint, Prod.mk.injEq] at isSplit
    rw [← isSplit.1, ← isSplit.2] at isText
    rw [← isSplit.1] at furtherDigits
    rw [isText]
    by_cases isEmpty : whole = []
    · rw [isEmpty] at notEmpty ⊢
      exact ⟨'.' :: fraction, rfl, .fraction (fun noDigits => notEmpty ⟨rfl, noDigits⟩)
        furtherDigits⟩
    · exact ⟨whole ++ '.' :: fraction, by simp, .pointed isEmpty areDigits furtherDigits⟩

theorem split?_eq {text whole afterWhole fraction afterFraction : List Char}
    (digits : splitDigits text = (whole, afterWhole))
    (behindPoint : splitFraction whole.isEmpty afterWhole = (fraction, afterFraction)) :
    split? text = if whole.isEmpty && fraction.isEmpty then none
      else some (⟨whole, fraction, (splitExponent afterFraction).1⟩,
        (splitExponent afterFraction).2) := by
  rw [split?, digits]
  simp only [behindPoint]

/-- What is split off as a numeral is one. -/
theorem exists_of_split? {text rest : List Char} {numeral : Numeral}
    (found : split? text = some (numeral, rest)) :
    ∃ mantissaText exponent exponentText, text = mantissaText ++ exponentText ++ rest ∧
      Mantissa numeral.whole numeral.fraction mantissaText ∧ Exponent exponent exponentText ∧
        numeral.exponent = exponent.getD 0 := by
  have ⟨fraction, afterFraction, behindPoint⟩ : ∃ fraction afterFraction,
      splitFraction (text.takeWhile isDecimalDigit).isEmpty (text.dropWhile isDecimalDigit) =
        (fraction, afterFraction) := ⟨_, _, rfl⟩
  rw [split?_eq rfl behindPoint] at found
  split at found
  · cases found
  · rename_i notEmpty
    rw [Bool.and_eq_true, List.isEmpty_iff, List.isEmpty_iff] at notEmpty
    simp only [Option.some.injEq, Prod.mk.injEq] at found
    have ⟨mantissaText, isMantissaText, isMantissa⟩ :=
      exists_mantissa (isDecimalDigit_of_takeWhile text) behindPoint notEmpty
    have ⟨exponent, exponentText, isAfter, isExponent, value⟩ := exists_exponent afterFraction
    rw [List.takeWhile_append_dropWhile] at isMantissaText
    rw [← found.1, ← found.2]
    refine ⟨mantissaText, exponent, exponentText, ?_, isMantissa, isExponent, value⟩
    rw [List.append_assoc, ← isAfter, isMantissaText]

/-! In front of any rest, a numeral is split off as it is or as part of a longer one. -/

/-- A numeral in front of a rest, or a longer one with less behind it. -/
def Takes (numeral : Numeral) (rest : List Char) (found : Option (Numeral × List Char)) : Prop :=
  found = some (numeral, rest) ∨
    ∃ other shorter, found = some (other, shorter) ∧ shorter.length < rest.length

/-- No more digits at the beginning. -/
def EndsDigits (text : List Char) : Prop :=
  ∀ first ∈ text.head?, isDecimalDigit first = false

theorem splitDigits_append {digits : List Char} (areDigits : Digits digits) (rest : List Char) :
    splitDigits (digits ++ rest) = (digits ++ (splitDigits rest).1, (splitDigits rest).2) := by
  rw [splitDigits, List.takeWhile_append_of_pos areDigits, List.dropWhile_append_of_pos areDigits,
    splitDigits]

theorem splitDigits_of_endsDigits {text : List Char} (ends : EndsDigits text) :
    splitDigits text = ([], text) := by
  cases text with
  | nil => rfl
  | cons first rest =>
      have notDigit := ends first rfl
      rw [splitDigits, List.takeWhile_cons_of_neg (by simp [notDigit]),
        List.dropWhile_cons_of_neg (by simp [notDigit])]

/-- Digits in front of a rest, or more of them with less behind them. -/
theorem splitDigits_cases {digits : List Char} (areDigits : Digits digits) (rest : List Char) :
    splitDigits (digits ++ rest) = (digits, rest) ∨
      ¬EndsDigits rest ∧ ∃ more shorter, splitDigits (digits ++ rest) = (digits ++ more, shorter) ∧
        shorter.length < rest.length := by
  rw [splitDigits_append areDigits]
  by_cases ends : EndsDigits rest
  · rw [splitDigits_of_endsDigits ends, List.append_nil]
    exact .inl rfl
  · refine .inr ⟨ends, _, _, rfl, ?_⟩
    have ⟨first, isFirst, isDigit⟩ :
        ∃ first, rest.head? = some first ∧ isDecimalDigit first = true := by
      simpa [EndsDigits] using ends
    have ⟨behind, isRest⟩ := List.head?_eq_some_iff.mp isFirst
    rw [isRest, splitDigits, List.dropWhile_cons_of_pos isDigit]
    exact Nat.lt_succ_of_le (List.dropWhile_sublist _).length_le

theorem length_splitExponent_le (text : List Char) :
    (splitExponent text).2.length ≤ text.length := by
  have ⟨_, exponentText, isText, _, _⟩ := exists_exponent text
  have length := congrArg List.length isText
  rw [List.length_append] at length
  omega

theorem length_splitFraction_le (wholeIsEmpty : Bool) (text : List Char) :
    (splitFraction wholeIsEmpty text).2.length ≤ text.length := by
  rcases exists_of_splitFraction wholeIsEmpty text with nothing | split
  · rw [nothing]
  · have ⟨digits, rest, isText, _, _, isSplit⟩ := split
    rw [isSplit, isText, List.length_cons, List.length_append]
    exact Nat.le_succ_of_le (Nat.le_add_left _ _)

theorem splitSign_append {sign : Int} {signText : List Char} (isSign : Sign sign signText)
    {unsigned : List Char} (unmarked : ∀ first ∈ unsigned.head?, first ≠ '-' ∧ first ≠ '+') :
    splitSign (signText ++ unsigned) = (decide (sign < 0), unsigned) := by
  cases isSign with
  | plus => rfl
  | minus => rfl
  | absent =>
      cases unsigned with
      | nil => rfl
      | cons first rest =>
          have ⟨notMinus, notPlus⟩ := unmarked first rfl
          rw [List.nil_append, splitSign]
          · rfl
          · intro remaining isMinus
            exact notMinus (List.cons.inj isMinus).1
          · intro remaining isPlus
            exact notPlus (List.cons.inj isPlus).1

theorem unmarked_of_isDecimalDigit {first : Char} (isDigit : isDecimalDigit first = true) :
    first ≠ '-' ∧ first ≠ '+' := by
  constructor <;> rintro rfl <;> exact absurd isDigit (by decide)

theorem unmarked_append {digits : List Char} (notEmpty : digits ≠ []) (areDigits : Digits digits)
    (rest : List Char) : ∀ first ∈ (digits ++ rest).head?, first ≠ '-' ∧ first ≠ '+' := by
  intro first isFirst
  rw [List.head?_append_of_ne_nil _ notEmpty] at isFirst
  exact unmarked_of_isDecimalDigit (areDigits first (List.mem_of_mem_head? isFirst))

/-- An exponent in front of a rest, or a longer one with less behind it. -/
theorem splitExponent_cases {exponent : Option Int} {exponentText : List Char}
    (isExponent : Exponent exponent exponentText) (rest : List Char) :
    splitExponent (exponentText ++ rest) = (exponent.getD 0, rest) ∨
      (splitExponent (exponentText ++ rest)).2.length < rest.length := by
  cases isExponent with
  | absent =>
      rcases exists_of_splitExponent rest with nothing | split
      · exact .inl nothing
      · have ⟨_, exponentText, after, isText, notEmpty, _, isSplit⟩ := split
        refine .inr ?_
        rw [List.nil_append, isSplit, isText, List.length_append]
        exact Nat.lt_add_of_pos_left (List.length_pos_iff.mpr notEmpty)
  | @present mark sign signText digits isMark isSign notEmpty areDigits =>
      have marked : (mark == 'e' || mark == 'E') = true := by
        rw [Bool.or_eq_true, beq_iff_eq, beq_iff_eq]
        exact isMark
      rw [List.cons_append, List.append_assoc, splitExponent]
      simp only [marked, if_true, splitSign_append isSign (unmarked_append notEmpty areDigits rest)]
      rcases splitDigits_cases areDigits rest with exact | ⟨_, more, shorter, longer, less⟩
      · left
        rw [exact]
        simp only [List.isEmpty_iff, notEmpty, if_false]
        cases isSign <;> simp
      · right
        rw [longer]
        simp only [List.isEmpty_iff, List.append_eq_nil_iff, notEmpty, false_and, if_false]
        exact less

theorem splitFraction_point {wholeIsEmpty : Bool} {digits : List Char} (areDigits : Digits digits)
    (counts : wholeIsEmpty = true → digits ≠ []) (rest : List Char) :
    splitFraction wholeIsEmpty ('.' :: (digits ++ rest)) = splitDigits (digits ++ rest) := by
  have notAlone : ¬(wholeIsEmpty = true ∧ digits ++ (splitDigits rest).1 = []) := by
    intro ⟨isEmpty, noDigits⟩
    exact counts isEmpty (List.append_eq_nil_iff.mp noDigits).1
  rw [splitFraction]
  simp only [splitDigits_append areDigits, Bool.and_eq_true, List.isEmpty_iff, notAlone, if_false]

theorem endsDigits_exponent {exponent : Option Int} {exponentText : List Char}
    (isExponent : Exponent exponent exponentText) (notEmpty : exponentText ≠ [])
    (rest : List Char) : EndsDigits (exponentText ++ rest) := by
  cases isExponent with
  | absent => exact absurd rfl notEmpty
  | present isMark _ _ _ =>
      intro first isFirst
      cases isFirst
      rcases isMark with rfl | rfl <;> decide

section Takes

variable {whole fraction : List Char} {exponent : Option Int} {exponentText : List Char}
  (isExponent : Exponent exponent exponentText) (rest : List Char)

/-- A mantissa that goes on leaves less behind it, whatever exponent it has then. -/
theorem takes_of_shorter {numeral : Numeral} {after : List Char}
    (shorter : after.length < rest.length) : Takes numeral rest
      (some (⟨whole, fraction, (splitExponent after).1⟩, (splitExponent after).2)) :=
  .inr ⟨_, _, rfl, Nat.lt_of_le_of_lt (length_splitExponent_le after) shorter⟩

include isExponent

theorem takes_exponent : Takes ⟨whole, fraction, exponent.getD 0⟩ rest
    (some (⟨whole, fraction, (splitExponent (exponentText ++ rest)).1⟩,
      (splitExponent (exponentText ++ rest)).2)) := by
  rcases splitExponent_cases isExponent rest with exact | shorter
  · rw [exact]
    exact .inl rfl
  · exact .inr ⟨_, _, rfl, shorter⟩

theorem takes_fraction {text : List Char}
    (isWhole : splitDigits text = (whole, '.' :: (fraction ++ (exponentText ++ rest))))
    (areDigits : Digits fraction) (counts : whole = [] → fraction ≠ []) :
    Takes ⟨whole, fraction, exponent.getD 0⟩ rest (split? text) := by
  have behindPoint := splitFraction_point areDigits
    (fun isEmpty => counts (List.isEmpty_iff.mp isEmpty)) (exponentText ++ rest)
  have notEmpty : ∀ more, ¬((whole.isEmpty && (fraction ++ more).isEmpty) = true) := by
    intro more
    rw [Bool.and_eq_true, List.isEmpty_iff, List.isEmpty_iff, List.append_eq_nil_iff]
    exact fun ⟨noWhole, noFraction, _⟩ => counts noWhole noFraction
  rcases splitDigits_cases areDigits (exponentText ++ rest) with exact | ⟨goesOn, more, longer⟩
  · have isSome := notEmpty []
    rw [List.append_nil] at isSome
    rw [split?_eq isWhole (behindPoint.trans exact), if_neg isSome]
    exact takes_exponent isExponent rest
  · have ⟨shorter, isLonger, less⟩ := longer
    have noExponent : exponentText = [] :=
      Decidable.byContradiction fun present => goesOn (endsDigits_exponent isExponent present rest)
    rw [noExponent, List.nil_append] at less
    rw [split?_eq isWhole (behindPoint.trans isLonger), if_neg (notEmpty more)]
    exact takes_of_shorter rest less

theorem takes_whole (notEmpty : whole ≠ []) (areDigits : Digits whole) :
    Takes ⟨whole, [], exponent.getD 0⟩ rest (split? (whole ++ (exponentText ++ rest))) := by
  have isSome : ∀ more fraction : List Char,
      ¬(((whole ++ more).isEmpty && fraction.isEmpty) = true) := by
    intro more fraction
    rw [Bool.and_eq_true, List.isEmpty_iff, List.append_eq_nil_iff]
    exact fun ⟨⟨noWhole, _⟩, _⟩ => notEmpty noWhole
  rcases splitDigits_cases areDigits (exponentText ++ rest) with exact | ⟨goesOn, more, longer⟩
  · have someWhole := isSome []
    rw [List.append_nil] at someWhole
    rcases exists_of_splitFraction whole.isEmpty (exponentText ++ rest) with nothing | split
    · rw [split?_eq exact nothing, if_neg (someWhole _)]
      exact takes_exponent isExponent rest
    · have ⟨digits, after, isText, _, _, isSplit⟩ := split
      rw [split?_eq exact isSplit, if_neg (someWhole _)]
      apply takes_of_shorter
      cases isExponent with
      | present isMark =>
          have isPoint := (List.cons.inj isText).1
          rcases isMark with rfl | rfl <;> exact absurd isPoint (by decide)
      | absent =>
          rw [List.nil_append] at isText
          rw [isText, List.length_cons, List.length_append]
          exact Nat.lt_succ_of_le (Nat.le_add_left _ _)
  · have ⟨shorter, isLonger, less⟩ := longer
    have noExponent : exponentText = [] :=
      Decidable.byContradiction fun present => goesOn (endsDigits_exponent isExponent present rest)
    rw [noExponent, List.nil_append] at less
    rw [split?_eq isLonger rfl, if_neg (isSome _ _)]
    exact takes_of_shorter rest (Nat.lt_of_le_of_lt (length_splitFraction_le _ _) less)

theorem takes_mantissa {mantissaText : List Char}
    (isMantissa : Mantissa whole fraction mantissaText) :
    Takes ⟨whole, fraction, exponent.getD 0⟩ rest
      (split? (mantissaText ++ exponentText ++ rest)) := by
  have endsAtPoint : ∀ behind : List Char, EndsDigits ('.' :: behind) := by
    intro behind first isFirst
    cases isFirst
    decide
  cases isMantissa with
  | @pointed _ _ notEmpty areDigits furtherDigits =>
      apply takes_fraction isExponent rest _ furtherDigits (absurd · notEmpty)
      rw [List.append_assoc, List.append_assoc, List.cons_append, splitDigits_append areDigits,
        splitDigits_of_endsDigits (endsAtPoint _), List.append_nil]
  | @fraction _ notEmpty furtherDigits =>
      apply takes_fraction isExponent rest _ furtherDigits fun _ => notEmpty
      rw [List.append_assoc, List.cons_append, splitDigits_of_endsDigits (endsAtPoint _)]
  | whole notEmpty areDigits =>
      rw [List.append_assoc]
      exact takes_whole isExponent rest notEmpty areDigits

end Takes

theorem split?_numeral {whole fraction mantissaText exponentText : List Char}
    {exponent : Option Int} (isMantissa : Mantissa whole fraction mantissaText)
    (isExponent : Exponent exponent exponentText) :
    split? (mantissaText ++ exponentText) = some (⟨whole, fraction, exponent.getD 0⟩, []) := by
  have takes := takes_mantissa isExponent [] isMantissa
  rw [List.append_nil] at takes
  rcases takes with exact | ⟨_, _, _, less⟩
  · exact exact
  · exact absurd less (Nat.not_lt_zero _)

end Numeral

/-! The longest word of a text is split off, sign first. -/

namespace NumberWord

open Json.Grammar (Digits Sign Exponent)

theorem Mantissa.exists_first {whole fraction text : List Char}
    (isMantissa : Mantissa whole fraction text) :
    ∃ first rest, text = first :: rest ∧ (isDecimalDigit first = true ∨ first = '.') := by
  cases isMantissa with
  | fraction => exact ⟨_, _, rfl, .inr rfl⟩
  | whole notEmpty areDigits =>
      have ⟨first, rest, isText⟩ := List.exists_cons_of_ne_nil notEmpty
      exact ⟨first, rest, isText, .inl (areDigits first (isText ▸ List.mem_cons_self))⟩
  | pointed notEmpty areDigits =>
      have ⟨first, rest, isText⟩ := List.exists_cons_of_ne_nil notEmpty
      exact ⟨first, _, congrArg (· ++ _) isText,
        .inl (areDigits first (isText ▸ List.mem_cons_self))⟩

/-- A numeral does not begin like the word for infinity. -/
theorem Mantissa.not_infinityWord {whole fraction text : List Char}
    (isMantissa : Mantissa whole fraction text) (behind rest : List Char) :
    text ++ behind ≠ infinityWord ++ rest := by
  have ⟨first, remaining, isText, isFirst⟩ := isMantissa.exists_first
  intro same
  rw [isText] at same
  have isInitial : first = 'I' := (List.cons.inj same).1
  rw [isInitial] at isFirst
  revert isFirst
  decide

theorem Unsigned.unmarked {size : Size} {text : List Char} (isUnsigned : Unsigned size text)
    (rest : List Char) : ∀ first ∈ (text ++ rest).head?, first ≠ '-' ∧ first ≠ '+' := by
  intro first isFirst
  cases isUnsigned with
  | infinity =>
      cases isFirst
      decide
  | numeral isMantissa =>
      have ⟨digit, remaining, isText, isDigit⟩ := isMantissa.exists_first
      rw [isText] at isFirst
      cases isFirst
      rcases isDigit with isDigit | rfl
      · exact Numeral.unmarked_of_isDecimalDigit isDigit
      · decide

theorem Unsigned.infinite_or_finite {size : Size} {text : List Char}
    (isUnsigned : Unsigned size text) : text = infinityWord ∧ size = .infinite ∨
      text ≠ infinityWord ∧ ∃ numeral, Numeral.split? text = some (numeral, []) ∧
        size = .finite numeral.decimal.value := by
  cases isUnsigned with
  | infinity => exact .inl ⟨rfl, rfl⟩
  | @numeral _ _ _ exponentText _ isMantissa isExponent =>
      have different := isMantissa.not_infinityWord exponentText []
      rw [List.append_nil] at different
      refine .inr ⟨different, _, Numeral.split?_numeral isMantissa isExponent, ?_⟩
      rw [Numeral.value_decimal]

theorem Unsigned.unique {left right : Size} {text : List Char} (isLeft : Unsigned left text)
    (isRight : Unsigned right text) : left = right := by
  rcases isLeft.infinite_or_finite with ⟨isInfinity, isLeft⟩ | ⟨different, _, found, isLeft⟩
  · have ⟨_, isRight⟩ := isRight.infinite_or_finite.resolve_right (absurd isInfinity ·.1)
    rw [isLeft, isRight]
  · have ⟨_, _, sameFound, isRight⟩ :=
      isRight.infinite_or_finite.resolve_left (absurd ·.1 different)
    rw [found, Option.some.injEq, Prod.mk.injEq] at sameFound
    rw [isLeft, isRight, sameFound.1]

/-- An unsigned word at the start of a text, and no longer one. -/
structure IsLongestUnsigned (size : Size) (word text : List Char) : Prop where
  isPrefix : word <+: text
  isUnsigned : Unsigned size word
  longest : ∀ {other otherSize}, Unsigned otherSize other → other <+: text →
    other.length ≤ word.length

theorem isLongestUnsigned_infinityWord {text : List Char} (isPrefix : infinityWord <+: text) :
    IsLongestUnsigned .infinite infinityWord text := by
  refine ⟨isPrefix, .infinity, fun {other otherSize} isOther otherPrefix => ?_⟩
  cases isOther with
  | infinity => exact Nat.le_refl _
  | numeral isMantissa =>
      have ⟨behindInfinity, isText⟩ := isPrefix
      have ⟨behindOther, isSameText⟩ := otherPrefix
      rw [← isText, List.append_assoc] at isSameText
      exact absurd isSameText (isMantissa.not_infinityWord _ _)

theorem isLongestUnsigned_of_split? {text rest : List Char} {numeral : Numeral}
    (notInfinity : ¬infinityWord <+: text) (found : Numeral.split? text = some (numeral, rest)) :
    ∃ word, IsLongestUnsigned (.finite numeral.decimal.value) word text := by
  have ⟨mantissaText, exponent, exponentText, isText, isMantissa, isExponent, value⟩ :=
    Numeral.exists_of_split? found
  have isUnsigned := Unsigned.numeral isMantissa isExponent
  rw [← value, ← numeral.value_decimal] at isUnsigned
  refine ⟨_, ⟨rest, isText.symm⟩, isUnsigned, fun {other otherSize} isOther otherPrefix => ?_⟩
  cases isOther with
  | infinity => exact absurd otherPrefix notInfinity
  | numeral otherMantissa otherExponent =>
      have ⟨behind, isSameText⟩ := otherPrefix
      have length := congrArg List.length (isText.symm.trans isSameText.symm)
      have takes := Numeral.takes_mantissa otherExponent behind otherMantissa
      rw [isSameText, found] at takes
      simp only [List.length_append] at length ⊢
      rcases takes with exact | ⟨_, shorter, isFound, less⟩
      · rw [Option.some.injEq, Prod.mk.injEq] at exact
        rw [exact.2] at length
        omega
      · rw [Option.some.injEq, Prod.mk.injEq] at isFound
        rw [isFound.2] at length
        omega

theorem not_unsigned_of_split? {text : List Char} (notInfinity : ¬infinityWord <+: text)
    (notFound : Numeral.split? text = none) {size : Size} {word : List Char}
    (isUnsigned : Unsigned size word) : ¬word <+: text := by
  intro isPrefix
  cases isUnsigned with
  | infinity => exact notInfinity isPrefix
  | numeral isMantissa isExponent =>
      have ⟨behind, isText⟩ := isPrefix
      have takes := Numeral.takes_mantissa isExponent behind isMantissa
      rw [isText, notFound] at takes
      rcases takes with exact | ⟨_, _, isFound, _⟩
      · cases exact
      · cases isFound

/-- What is read of a text without a sign: the longest word, or nothing if there is none. -/
theorem readUnsignedPrefix_cases (text : List Char) :
    (∃ size word magnitude, IsLongestUnsigned size word text ∧ size.IsReadAs magnitude ∧
      ∀ negative, readUnsignedPrefix negative text = .number negative magnitude) ∨
    (∀ {size word}, Unsigned size word → ¬word <+: text) ∧
      ∀ negative, readUnsignedPrefix negative text = .nan := by
  by_cases isInfinity : infinityWord <+: text
  · have isLongest := isLongestUnsigned_infinityWord isInfinity
    refine .inl ⟨_, _, .infinity, isLongest, rfl, fun negative => ?_⟩
    rw [readUnsignedPrefix, if_pos (List.isPrefixOf_iff_prefix.mpr isInfinity)]
  · have notInfinity : ¬infinityWord.isPrefixOf text = true :=
      fun isPrefix => isInfinity (List.isPrefixOf_iff_prefix.mp isPrefix)
    simp only [readUnsignedPrefix, notInfinity]
    cases found : Numeral.split? text with
    | none => exact .inr ⟨not_unsigned_of_split? isInfinity found, fun _ => rfl⟩
    | some split =>
        have ⟨word, isLongest⟩ := isLongestUnsigned_of_split? isInfinity found
        exact .inl ⟨_, word, _, isLongest, split.1.decimal.isNearest_magnitude, fun _ => rfl⟩

/-- A word at the start of a text has the sign of the text. -/
theorem Word.exists_unsigned {text unsigned signText word : List Char} {sign : Int}
    {negative : Bool} {size : Size} (isWord : Word negative size word) (isPrefix : word <+: text)
    (isText : text = signText ++ unsigned)
    (isSplit : Numeral.splitSign text = (decide (sign < 0), unsigned)) :
    ∃ rest, word = signText ++ rest ∧ Unsigned size rest ∧ rest <+: unsigned ∧
      negative = decide (sign < 0) := by
  cases isWord with
  | @of wordSign _ wordSignText rest isSign isUnsigned =>
      have ⟨behind, isSameText⟩ := isPrefix
      rw [List.append_assoc] at isSameText
      have ownSplit := Numeral.splitSign_append isSign (isUnsigned.unmarked behind)
      rw [isSameText, isSplit, Prod.mk.injEq] at ownSplit
      have sameSign : wordSignText = signText := by
        rw [isText, ownSplit.2] at isSameText
        exact List.append_cancel_right isSameText
      exact ⟨rest, by rw [sameSign], isUnsigned, ⟨behind, ownSplit.2.symm⟩, ownSplit.1.symm⟩

theorem Word.unique {left right : Bool} {leftSize rightSize : Size} {word : List Char}
    (isLeft : Word left leftSize word) (isRight : Word right rightSize word) :
    left = right ∧ leftSize = rightSize := by
  have ⟨sign, signText, unsigned, _, isText, isSplit⟩ := Numeral.exists_of_splitSign word
  have ⟨leftRest, leftWord, leftUnsigned, _, leftSign⟩ :=
    isLeft.exists_unsigned (List.prefix_refl word) isText isSplit
  have ⟨rightRest, rightWord, rightUnsigned, _, rightSign⟩ :=
    isRight.exists_unsigned (List.prefix_refl word) isText isSplit
  have sameRest := List.append_cancel_left (leftWord.symm.trans rightWord)
  rw [sameRest] at leftUnsigned
  exact ⟨leftSign.trans rightSign.symm, leftUnsigned.unique rightUnsigned⟩

theorem Size.IsReadAs.unique {size : Size} {left right : Magnitude} (isLeft : size.IsReadAs left)
    (isRight : size.IsReadAs right) : left = right := by
  cases size with
  | infinite => exact isLeft.trans isRight.symm
  | finite value => exact Magnitude.IsNearest.unique isLeft isRight

theorem IsLongest.unique {left right text : List Char} (isLeft : IsLongest left text)
    (isRight : IsLongest right text) : left = right := by
  have same := Nat.le_antisymm (isRight.longest left isLeft.isPrefix isLeft.isWord)
    (isLeft.longest right isRight.isPrefix isRight.isWord)
  exact (List.prefix_of_prefix_length_le isLeft.isPrefix isRight.isPrefix same.le).eq_of_length same

/-- The number that is read at the start of a text, white space apart. -/
def readSigned (text : List Char) : Binary64 :=
  readUnsignedPrefix (Numeral.splitSign text).1 (Numeral.splitSign text).2

theorem readSigned_cases (text : List Char) :
    (∃ word negative size magnitude, IsLongest word text ∧ Word negative size word ∧
      size.IsReadAs magnitude ∧ readSigned text = .number negative magnitude) ∨
    (∀ word, word <+: text → ¬IsWord word) ∧ readSigned text = .nan := by
  have ⟨sign, signText, unsigned, isSign, isText, isSplit⟩ := Numeral.exists_of_splitSign text
  rw [readSigned, isSplit]
  rcases readUnsignedPrefix_cases unsigned with ⟨size, word, magnitude, isLongest, isRead, reads⟩ |
    ⟨noWord, reads⟩
  · have isWord := Word.of isSign isLongest.isUnsigned
    refine .inl ⟨_, _, size, magnitude, ⟨?_, ⟨_, _, isWord⟩, ?_⟩, isWord, isRead, reads _⟩
    · rw [isText]
      exact (List.prefix_append_right_inj signText).mpr isLongest.isPrefix
    · intro other isPrefix ⟨_, _, isOther⟩
      have ⟨rest, isRest, isUnsigned, restPrefix, _⟩ :=
        isOther.exists_unsigned isPrefix isText isSplit
      rw [isRest, List.length_append, List.length_append]
      exact Nat.add_le_add_left (isLongest.longest isUnsigned restPrefix) _
  · refine .inr ⟨?_, reads _⟩
    intro word isPrefix ⟨_, _, isWord⟩
    have ⟨rest, _, isUnsigned, restPrefix, _⟩ := isWord.exists_unsigned isPrefix isText isSplit
    exact noWord isUnsigned restPrefix

/-- Nothing behind the longest word matters. -/
theorem readSigned_eq {word text other : List Char} (isLongest : IsLongest word text)
    (sameLongest : IsLongest word other) : readSigned text = readSigned other := by
  rcases readSigned_cases text with ⟨_, _, _, _, isWord, denotes, isRead, reads⟩ | ⟨noWord, _⟩
  · rcases readSigned_cases other with
      ⟨_, _, _, _, isOther, denotesOther, isReadOther, readsOther⟩ | ⟨noWord, _⟩
    · rw [isWord.unique isLongest] at denotes
      rw [isOther.unique sameLongest] at denotesOther
      have ⟨sameSign, sameSize⟩ := denotes.unique denotesOther
      rw [← sameSize] at isReadOther
      rw [reads, readsOther, sameSign, isRead.unique isReadOther]
    · exact absurd sameLongest.isWord (noWord word sameLongest.isPrefix)
  · exact absurd isLongest.isWord (noWord word isLongest.isPrefix)

/-- The texts that spell infinity with a sign and three letters. -/
def SpellsInfinity (text : List Char) : Prop :=
  trim text = "+Inf".toList ∨ trim text = "-Inf".toList

/-- What is read at the start of a text. -/
structure ReadsStart (text : List Char) (number : Binary64) : Prop where
  plusInfinity : trim text = "+Inf".toList → number = .infinity
  minusInfinity : trim text = "-Inf".toList → number = .negativeInfinity
  noWord : ¬SpellsInfinity text → (∀ word, word <+: trimStart text → ¬IsWord word) →
    number = .nan
  longestWord : ¬SpellsInfinity text → (∃ word, word <+: trimStart text ∧ IsWord word) →
    ∃ word negative size magnitude, IsLongest word (trimStart text) ∧ Word negative size word ∧
      size.IsReadAs magnitude ∧ number = .number negative magnitude
  nothingElse : ¬SpellsInfinity text → ∀ {other word}, ¬SpellsInfinity other →
    IsLongest word (trimStart text) → IsLongest word (trimStart other) →
      readNumericPrefix other = number

theorem readNumericPrefix_eq_readSigned {text : List Char} (notInfinity : ¬SpellsInfinity text) :
    readNumericPrefix text = readSigned (trimStart text) := by
  rw [readNumericPrefix, if_neg fun isPlus => notInfinity (.inl isPlus),
    if_neg fun isMinus => notInfinity (.inr isMinus)]
  rfl

/-- The longest word at the start of a text is read, whatever is behind it. -/
theorem readsStart (text : List Char) : ReadsStart text (readNumericPrefix text) := by
  constructor
  case plusInfinity =>
    intro isPlus
    rw [readNumericPrefix, if_pos isPlus]
  case minusInfinity =>
    intro isMinus
    have notPlus : ¬trim text = "+Inf".toList := by
      rw [isMinus]
      decide
    rw [readNumericPrefix, if_neg notPlus, if_pos isMinus]
  case noWord =>
    intro notInfinity noWord
    rw [readNumericPrefix_eq_readSigned notInfinity]
    rcases readSigned_cases (trimStart text) with ⟨word, _, _, _, isLongest, _⟩ | ⟨_, isNan⟩
    · exact absurd isLongest.isWord (noWord word isLongest.isPrefix)
    · exact isNan
  case longestWord =>
    intro notInfinity ⟨word, isPrefix, isWord⟩
    rw [readNumericPrefix_eq_readSigned notInfinity]
    exact (readSigned_cases (trimStart text)).resolve_right fun ⟨noWord, _⟩ =>
      noWord word isPrefix isWord
  case nothingElse =>
    intro notInfinity other word otherNotInfinity isLongest sameLongest
    rw [readNumericPrefix_eq_readSigned notInfinity,
      readNumericPrefix_eq_readSigned otherNotInfinity]
    exact readSigned_eq sameLongest isLongest

end NumberWord

end MetricWatch
