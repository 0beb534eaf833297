import MetricWatch.Proofs.Text.Utf8
import MetricWatch.Proofs.Url.PercentCoding

namespace MetricWatch.Url

/-! Texts that hold escapes, whether these come from an encoding or not. -/

/-- The value of the escape that a text begins with. -/
def escape? : List Char → Option Nat
  | '%' :: high :: low :: _ =>
      match hexValue? high, hexValue? low with
      | some upper, some lower => some (upper * 16 + lower)
      | _, _ => none
  | _ => none

theorem percentDecode_of_escape? {character : Char} {rest : List Char} {value : Nat}
    (isEscape : escape? (character :: rest) = some value) :
    percentDecode (character :: rest) = UInt8.ofNat value :: percentDecode (rest.drop 2) := by
  simp only [escape?] at isEscape
  split at isEscape
  · rename_i high low behind equal
    cases equal
    split at isEscape
    · rename_i isHigh isLow
      cases isEscape
      rw [percentDecode, isHigh, isLow]
      rfl
    · cases isEscape
  · cases isEscape

theorem percentDecode_of_no_escape {character : Char} {rest : List Char}
    (noEscape : escape? (character :: rest) = none) :
    percentDecode (character :: rest) = Utf8.encodeCharacter character ++ percentDecode rest := by
  by_cases isPercent : character = '%'
  · subst isPercent
    match rest with
    | [] => rfl
    | [_] => rfl
    | high :: low :: behind =>
        simp only [escape?] at noEscape
        split at noEscape
        · cases noEscape
        · rename_i notBoth
          rw [percentDecode]
          split
          · rename_i isHigh isLow
            exact absurd isLow (notBoth _ _ isHigh)
          · rfl
  · exact percentDecode_cons isPercent rest

/-- A text is read escape by escape, and otherwise character by character. -/
theorem escapeInduction {motive : List Char → Prop} (nil : motive [])
    (escape : ∀ character rest value, escape? (character :: rest) = some value →
      motive (rest.drop 2) → motive (character :: rest))
    (single : ∀ character rest, escape? (character :: rest) = none →
      motive rest → motive (character :: rest)) : ∀ text, motive text
  | [] => nil
  | character :: rest =>
      match isEscape : escape? (character :: rest) with
      | some value =>
          escape character rest value isEscape (escapeInduction nil escape single (rest.drop 2))
      | none => single character rest isEscape (escapeInduction nil escape single rest)
termination_by text => text.length
decreasing_by
  all_goals simp only [List.length_drop, List.length_cons]
  all_goals omega

/-! Nothing is read that is longer than the text, and nothing as long apart from the text
itself. -/

def NoEscape (text : List Char) : Prop :=
  ∀ suffix, suffix <:+ text → escape? suffix = none

theorem noEscape_cons_iff {character : Char} {rest : List Char} :
    NoEscape (character :: rest) ↔ escape? (character :: rest) = none ∧ NoEscape rest := by
  constructor
  · intro noEscape
    exact ⟨noEscape _ (List.suffix_refl _), fun suffix isSuffix =>
      noEscape suffix (isSuffix.trans (List.suffix_cons character rest))⟩
  · rintro ⟨notFirst, notBehind⟩ suffix isSuffix
    rcases List.suffix_cons_iff.mp isSuffix with rfl | isBehind
    · exact notFirst
    · exact notBehind suffix isBehind

theorem decoded_of_noEscape {text : List Char} (noEscape : NoEscape text) :
    Utf8.lossyText (percentDecode text) = text := by
  induction text with
  | nil => simp [percentDecode, Utf8.lossyText]
  | cons character rest induction =>
      rcases noEscape_cons_iff.mp noEscape with ⟨notFirst, notBehind⟩
      rw [percentDecode_of_no_escape notFirst, Utf8.lossyText_encodeCharacter_append,
        induction notBehind]

theorem length_decoded_le (text : List Char) :
    (Utf8.lossyText (percentDecode text)).length ≤ text.length := by
  induction text using escapeInduction with
  | nil => simp [percentDecode, Utf8.lossyText]
  | escape character rest value isEscape induction =>
      rw [percentDecode_of_escape? isEscape]
      calc (Utf8.lossyText (UInt8.ofNat value :: percentDecode (rest.drop 2))).length
          ≤ (Utf8.lossyText (percentDecode (rest.drop 2))).length + 1 :=
            Utf8.length_lossyText_cons_le _ _
        _ ≤ (rest.drop 2).length + 1 := Nat.succ_le_succ induction
        _ ≤ rest.length + 1 := by simp
  | single character rest notFirst induction =>
      rw [percentDecode_of_no_escape notFirst, Utf8.lossyText_encodeCharacter_append]
      exact Nat.succ_le_succ induction

theorem length_of_escape? {text : List Char} {value : Nat} (isEscape : escape? text = some value) :
    3 ≤ text.length := by
  simp only [escape?] at isEscape
  split at isEscape
  · simp
  · cases isEscape

theorem noEscape_of_length_le {text : List Char}
    (noShorter : text.length ≤ (Utf8.lossyText (percentDecode text)).length) :
    NoEscape text := by
  induction text with
  | nil =>
      intro suffix isSuffix
      rw [List.suffix_nil.mp isSuffix]
      rfl
  | cons character rest induction =>
      cases isEscape : escape? (character :: rest) with
      | some value =>
          rw [percentDecode_of_escape? isEscape] at noShorter
          have atMost := Utf8.length_lossyText_cons_le (UInt8.ofNat value)
            (percentDecode (rest.drop 2))
          have behind := length_decoded_le (rest.drop 2)
          have length := length_of_escape? isEscape
          simp only [List.length_cons, List.length_drop] at noShorter behind length
          omega
      | none =>
          rw [percentDecode_of_no_escape isEscape,
            Utf8.lossyText_encodeCharacter_append] at noShorter
          exact noEscape_cons_iff.mpr
            ⟨isEscape, induction (Nat.le_of_succ_le_succ noShorter)⟩

/-! What is read does not depend on which of the other characters are escaped as well. -/

/-- A character is written as it is read, or its bytes are escaped. What is escaped has no
part in another escape. -/
structure IsSpelling (spell : Char → List Char) (read : Char → Char) : Prop where
  literal_or_escaped : ∀ character, spell character = [read character] ∨
    spell character = (Utf8.encodeCharacter (read character)).flatMap encodeByte ∧
      read character ≠ '%' ∧ hexValue? (read character) = none

theorem escape?_of_not_high {high : Char} (notHex : hexValue? high = none) (rest : List Char) :
    escape? ('%' :: high :: rest) = none := by
  cases rest with
  | nil => rfl
  | cons low rest => simp [escape?, notHex]

theorem escape?_of_not_low {low : Char} (notHex : hexValue? low = none) (high : Char)
    (rest : List Char) : escape? ('%' :: high :: low :: rest) = none := by
  simp only [escape?, notHex]
  split
  · rename_i impossible
    cases impossible
  · rfl

section Spelling

variable {spell : Char → List Char} {read : Char → Char} (spelling : IsSpelling spell read)

include spelling

theorem spell_of_hexValue? {character : Char} {value : Nat}
    (isHex : hexValue? (read character) = some value) : spell character = [read character] := by
  rcases spelling.literal_or_escaped character with literal | ⟨_, _, notHex⟩
  · exact literal
  · rw [notHex] at isHex
    cases isHex

theorem hexValue?_head_spell {character : Char} (notHex : hexValue? (read character) = none) :
    ∃ first rest, spell character = first :: rest ∧ hexValue? first = none := by
  rcases spelling.literal_or_escaped character with literal | ⟨escaped, _, _⟩
  · exact ⟨_, _, literal, notHex⟩
  · rcases Utf8.leading?_encodeCharacter (read character) [] with
      ⟨lead, continuations, encoded, _⟩
    exact ⟨'%', _, by rw [escaped, encoded]; rfl, by decide⟩

/-- Whether a percent sign begins an escape does not depend on how the text behind it is
written. -/
theorem escape?_flatMap (text : List Char) :
    escape? ('%' :: text.flatMap spell) = none ∧ escape? ('%' :: text.map read) = none ∨
      ∃ value, escape? ('%' :: text.flatMap spell) = some value ∧
        escape? ('%' :: text.map read) = some value ∧
        (text.flatMap spell).drop 2 = (text.drop 2).flatMap spell := by
  cases text with
  | nil => exact .inl ⟨rfl, rfl⟩
  | cons high rest =>
      rw [List.flatMap_cons, List.map_cons]
      cases isHigh : hexValue? (read high) with
      | none =>
          rcases hexValue?_head_spell spelling isHigh with ⟨first, behind, spelled, notHex⟩
          rw [spelled]
          exact .inl ⟨escape?_of_not_high notHex _, escape?_of_not_high isHigh _⟩
      | some upper =>
          rw [spell_of_hexValue? spelling isHigh]
          cases rest with
          | nil => exact .inl ⟨rfl, rfl⟩
          | cons low rest =>
              rw [List.flatMap_cons, List.map_cons]
              cases isLow : hexValue? (read low) with
              | none =>
                  rcases hexValue?_head_spell spelling isLow with
                    ⟨first, behind, spelled, notHex⟩
                  rw [spelled]
                  exact .inl ⟨escape?_of_not_low notHex _ _, escape?_of_not_low isLow _ _⟩
              | some lower =>
                  rw [spell_of_hexValue? spelling isLow]
                  exact .inr ⟨upper * 16 + lower, by simp [escape?, isHigh, isLow],
                    by simp [escape?, isHigh, isLow], rfl⟩

theorem percentDecode_flatMap : ∀ text : List Char,
    percentDecode (text.flatMap spell) = percentDecode (text.map read)
  | [] => rfl
  | character :: rest => by
      have behind := percentDecode_flatMap rest
      rw [List.flatMap_cons, List.map_cons]
      rcases spelling.literal_or_escaped character with literal | ⟨escaped, notPercent, _⟩
      · rw [literal, List.singleton_append]
        by_cases isPercent : read character = '%'
        · rw [isPercent]
          rcases escape?_flatMap spelling rest with
            ⟨notWritten, notRead⟩ | ⟨value, isWritten, isRead, dropped⟩
          · rw [percentDecode_of_no_escape notWritten, percentDecode_of_no_escape notRead,
              behind]
          · rw [percentDecode_of_escape? isWritten, percentDecode_of_escape? isRead, dropped,
              ← List.map_drop, percentDecode_flatMap (rest.drop 2)]
        · rw [percentDecode_cons isPercent, percentDecode_cons isPercent, behind]
      · rw [escaped, percentDecode_encodeBytes, percentDecode_cons notPercent, behind]
termination_by text => text.length

end Spelling

end MetricWatch.Url
