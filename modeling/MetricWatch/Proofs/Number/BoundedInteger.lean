import MetricWatch.Number.BoundedInteger
import MetricWatch.Proofs.Number.DecimalValue
import MetricWatch.Proofs.Outcome

namespace MetricWatch

/-! Whole numbers within bounds are read exactly from the texts that spell them. -/

/-- Decimal digits and the number that they spell, zeros in front included. -/
structure SpellsNumber (digits : List Char) (value : Nat) : Prop where
  notEmpty : digits ≠ []
  areDigits : ∀ digit ∈ digits, isDecimalDigit digit = true
  isValue : digitsValue digits = value

/-- A number without a sign, or with a plus. -/
inductive SpellsUnsigned : List Char → Nat → Prop
  | plain {digits : List Char} {value : Nat} (isNumber : SpellsNumber digits value) :
      SpellsUnsigned digits value
  | plus {digits : List Char} {value : Nat} (isNumber : SpellsNumber digits value) :
      SpellsUnsigned ('+' :: digits) value

/-- A number that may have a minus too. -/
inductive SpellsSigned : List Char → Int → Prop
  | unsigned {text : List Char} {value : Nat} (isUnsigned : SpellsUnsigned text value) :
      SpellsSigned text value
  | minus {digits : List Char} {size : Nat} (isNumber : SpellsNumber digits size) :
      SpellsSigned ('-' :: digits) (-size)

/-- A sign is no digit. -/
theorem SpellsNumber.head_ne {digits rest : List Char} {value : Nat} {sign : Char}
    (isNumber : SpellsNumber digits value) (notDigit : isDecimalDigit sign = false) :
    digits ≠ sign :: rest := by
  rintro rfl
  have isDigit := isNumber.areDigits sign List.mem_cons_self
  exact Bool.noConfusion (notDigit.symm.trans isDigit)

variable {beyond : IntegerFault} {limit : Nat}

/-- A number that is within the limit is within it after every digit. -/
theorem readLimited_eq_ok_iff {value : Nat} (digits : List Char) :
    ∀ {front : List Char}, digitsValue front ≤ limit →
      (readLimited beyond limit (digitsValue front) digits = .ok value ↔
        (∀ digit ∈ digits, isDecimalDigit digit = true) ∧
          digitsValue (front ++ digits) = value ∧ value ≤ limit) := by
  induction digits with
  | nil =>
      intro front within
      rw [List.append_nil, readLimited, Except.ok.injEq]
      constructor
      · rintro rfl
        exact ⟨nofun, rfl, within⟩
      · exact fun isRead => isRead.2.1
  | cons digit digits induction =>
      intro front within
      rw [readLimited, List.forall_mem_cons]
      by_cases isDigit : isDecimalDigit digit = true
      · rw [if_pos isDigit, ← digitsValue_concat, List.append_cons front digit digits]
        dsimp only
        by_cases tooLarge : limit < digitsValue (front ++ [digit])
        · have grows := digitsValue_le_append (front ++ [digit]) digits
          rw [if_pos tooLarge]
          refine iff_of_false nofun ?_
          rintro ⟨_, isValue, within⟩
          omega
        · rw [if_neg tooLarge, induction (Nat.not_lt.mp tooLarge), and_iff_right isDigit]
      · rw [if_neg isDigit]
        exact iff_of_false nofun fun isRead => isDigit isRead.1.1

theorem readMagnitude_eq_ok_iff {digits : List Char} {value : Nat} :
    readMagnitude beyond limit digits = .ok value ↔ SpellsNumber digits value ∧ value ≤ limit := by
  by_cases isEmpty : digits = []
  · subst isEmpty
    exact iff_of_false nofun fun isNumber => isNumber.1.notEmpty rfl
  · have notEmpty : digits.isEmpty = false := eq_false_of_ne_true (mt List.isEmpty_iff.mp isEmpty)
    have nothing : digitsValue [] ≤ limit := Nat.zero_le limit
    rw [readMagnitude, notEmpty, if_neg Bool.false_ne_true]
    refine (readLimited_eq_ok_iff digits nothing).trans ?_
    rw [List.nil_append]
    constructor
    · rintro ⟨areDigits, isValue, within⟩
      exact ⟨⟨isEmpty, areDigits, isValue⟩, within⟩
    · rintro ⟨isNumber, within⟩
      exact ⟨isNumber.areDigits, isNumber.isValue, within⟩

theorem spellsUnsigned_plus_iff {digits : List Char} {value : Nat} :
    SpellsUnsigned ('+' :: digits) value ↔ SpellsNumber digits value := by
  constructor
  · intro isUnsigned
    cases isUnsigned with
    | plain isNumber => exact absurd rfl (isNumber.head_ne (by decide))
    | plus isNumber => exact isNumber
  · exact .plus

theorem spellsSigned_minus_iff {digits : List Char} {value : Int} :
    SpellsSigned ('-' :: digits) value ↔
      ∃ size : Nat, SpellsNumber digits size ∧ -(size : Int) = value := by
  constructor
  · intro isSigned
    cases isSigned with
    | unsigned isUnsigned =>
        cases isUnsigned with
        | plain isNumber => exact absurd rfl (isNumber.head_ne (by decide))
    | minus isNumber => exact ⟨_, isNumber, rfl⟩
  · rintro ⟨size, isNumber, rfl⟩
    exact .minus isNumber

theorem spellsSigned_iff {text : List Char} {value : Int} (notMinus : text.head? ≠ some '-') :
    SpellsSigned text value ↔
      ∃ number : Nat, SpellsUnsigned text number ∧ (number : Int) = value := by
  constructor
  · intro isSigned
    cases isSigned with
    | unsigned isUnsigned => exact ⟨_, isUnsigned, rfl⟩
    | minus => exact absurd rfl notMinus
  · rintro ⟨number, isUnsigned, rfl⟩
    exact .unsigned isUnsigned

theorem readUnsigned_eq_ok_iff {text : List Char} {value : Nat} :
    readUnsigned limit text = .ok value ↔ SpellsUnsigned text value ∧ value ≤ limit := by
  unfold readUnsigned
  split
  · refine iff_of_false nofun ?_
    rintro ⟨isUnsigned, _⟩
    cases isUnsigned with
    | plain isNumber => exact isNumber.notEmpty rfl
  · rw [readMagnitude_eq_ok_iff, spellsUnsigned_plus_iff]
  · rename_i notPlus
    rw [readMagnitude_eq_ok_iff]
    refine and_congr_left fun _ => ⟨.plain, fun isUnsigned => ?_⟩
    cases isUnsigned with
    | plain isNumber => exact isNumber
    | plus => exact absurd rfl (notPlus _)

theorem readSigned_eq_map {text : List Char} (lowest highest : Nat)
    (notMinus : text.head? ≠ some '-') :
    readSigned lowest highest text = (readUnsigned highest text).map Int.ofNat := by
  unfold readSigned readUnsigned
  split
  · rfl
  · rfl
  · exact absurd rfl notMinus
  · rename_i notEmpty notPlus _
    split
    · exact absurd rfl notEmpty
    · exact absurd rfl (notPlus _)
    · rfl

theorem readSigned_eq_ok_iff {lowest highest : Nat} {text : List Char} {value : Int} :
    readSigned lowest highest text = .ok value ↔
      SpellsSigned text value ∧ -(lowest : Int) ≤ value ∧ value ≤ highest := by
  by_cases isMinus : text.head? = some '-'
  · obtain ⟨digits, rfl⟩ := List.head?_eq_some_iff.mp isMinus
    rw [spellsSigned_minus_iff]
    simp only [readSigned, map_eq_ok_iff, readMagnitude_eq_ok_iff]
    constructor
    · rintro ⟨size, ⟨isNumber, within⟩, rfl⟩
      exact ⟨⟨size, isNumber, rfl⟩, by omega, by omega⟩
    · rintro ⟨⟨size, isNumber, rfl⟩, within, _⟩
      exact ⟨size, ⟨isNumber, by omega⟩, rfl⟩
  · rw [spellsSigned_iff isMinus, readSigned_eq_map lowest highest isMinus]
    simp only [map_eq_ok_iff, readUnsigned_eq_ok_iff]
    constructor
    · rintro ⟨number, ⟨isUnsigned, within⟩, rfl⟩
      exact ⟨⟨number, isUnsigned, rfl⟩, by simp only [Int.ofNat_eq_natCast]; omega,
        Int.ofNat_le.mpr within⟩
    · rintro ⟨⟨number, isUnsigned, rfl⟩, _, within⟩
      exact ⟨number, ⟨isUnsigned, Int.ofNat_le.mp within⟩, rfl⟩

end MetricWatch
