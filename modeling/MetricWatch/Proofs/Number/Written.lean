import MetricWatch.Number.DecimalStyle
import MetricWatch.Proofs.Number.Whole

namespace MetricWatch

/-! The characters of written numbers. -/

/-- Digits, marks, and the letters of `NaN`, `inf` and an exponent. -/
def isNumberCharacter (character : Char) : Bool :=
  isDecimalDigit character || ['-', '+', '.', 'e', 'N', 'a', 'i', 'n', 'f'].contains character

theorem isNumberCharacter_of_isDecimalDigit {character : Char}
    (isDigit : isDecimalDigit character = true) : isNumberCharacter character = true := by
  rw [isNumberCharacter, isDigit, Bool.true_or]

theorem isNumberCharacter_of_mem_decimalDigits {value : Nat} {digit : Char}
    (member : digit ∈ decimalDigits value) : isNumberCharacter digit = true :=
  isNumberCharacter_of_isDecimalDigit (isDecimalDigit_of_mem member)

namespace DecimalStyle

theorem significantDigits_sublist (coefficient : Nat) :
    (significantDigits coefficient).Sublist (decimalDigits coefficient) := by
  have shorter := List.dropWhile_sublist (· == '0') (l := (decimalDigits coefficient).reverse)
  have same := shorter.reverse
  rwa [List.reverse_reverse] at same

theorem isNumberCharacter_of_mem_significantDigits {coefficient : Nat} {digit : Char}
    (member : digit ∈ significantDigits coefficient) : isNumberCharacter digit = true :=
  isNumberCharacter_of_mem_decimalDigits ((significantDigits_sublist coefficient).mem member)

section Layout

variable {digits : List Char} (areDigits : ∀ digit ∈ digits, isNumberCharacter digit = true)

include areDigits

theorem isNumberCharacter_of_mem_plainText (wholeFraction : Bool) (leading : Int) :
    ∀ character ∈ plainText wholeFraction digits leading, isNumberCharacter character = true := by
  have areZeros : ∀ count, ∀ character ∈ List.replicate count '0',
      isNumberCharacter character = true := by
    intro count character member
    rw [List.eq_of_mem_replicate member]
    decide
  unfold plainText
  split
  · simp only [List.forall_mem_cons, List.forall_mem_append]
    exact ⟨by decide, by decide, areZeros _, areDigits⟩
  · simp only
    split
    · simp only [List.forall_mem_append]
      refine ⟨⟨areDigits, areZeros _⟩, ?_⟩
      cases wholeFraction <;> exact List.all_eq_true.mp (by decide)
    · simp only [List.forall_mem_append, List.forall_mem_cons]
      exact ⟨fun character member => areDigits character (List.mem_of_mem_take member),
        by decide, fun character member => areDigits character (List.mem_of_mem_drop member)⟩

theorem isNumberCharacter_of_mem_exponentText (leading : Int) :
    ∀ character ∈ exponentText digits leading, isNumberCharacter character = true := by
  have inExponent : ∀ character ∈ decimalDigits leading.natAbs,
      isNumberCharacter character = true :=
    fun _ => isNumberCharacter_of_mem_decimalDigits
  have isSign : isNumberCharacter (if leading < 0 then '-' else '+') = true := by
    split <;> decide
  unfold exponentText
  split
  · simp only [List.forall_mem_append, List.forall_mem_cons] at areDigits ⊢
    exact ⟨⟨areDigits.1, by decide, areDigits.2⟩, by decide, isSign, inExponent⟩
  · simp only [List.forall_mem_append, List.forall_mem_cons]
    exact ⟨areDigits, by decide, isSign, inExponent⟩

end Layout

theorem isNumberCharacter_of_mem_characters (style : DecimalStyle) (value : Binary64) :
    ∀ character ∈ style.characters value, isNumberCharacter character = true := by
  cases value with
  | nan =>
      change ∀ character ∈ ['N', 'a', 'N'], isNumberCharacter character = true
      exact List.all_eq_true.mp (by decide)
  | number negative magnitude =>
      unfold characters
      simp only [List.forall_mem_append]
      constructor
      · cases negative <;> exact List.all_eq_true.mp (by decide)
      · split
        · exact List.all_eq_true.mp (by decide)
        · unfold magnitudeText
          split
          · cases style.wholeFraction <;> exact List.all_eq_true.mp (by decide)
          · simp only
            split
            · exact isNumberCharacter_of_mem_plainText
                (fun _ => isNumberCharacter_of_mem_significantDigits) _ _
            · exact isNumberCharacter_of_mem_exponentText
                (fun _ => isNumberCharacter_of_mem_significantDigits) _

theorem not_mem_characters (style : DecimalStyle) (value : Binary64) {character : Char}
    (notInNumbers : isNumberCharacter character = false) : character ∉ style.characters value := by
  intro member
  have isNumber := style.isNumberCharacter_of_mem_characters value character member
  exact Bool.false_ne_true (notInNumbers.symm.trans isNumber)

end DecimalStyle

end MetricWatch
