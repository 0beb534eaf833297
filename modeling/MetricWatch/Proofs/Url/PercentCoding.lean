import MetricWatch.Proofs.Text.Utf8
import MetricWatch.Url.PercentCoding

namespace MetricWatch.Url

/-! What is percent-encoded is decoded again. -/

theorem ofNat_digits (byte : UInt8) :
    UInt8.ofNat (byte.toNat / 16 * 16 + byte.toNat % 16) = byte := by
  rw [Nat.div_add_mod' byte.toNat 16]
  exact UInt8.ofNat_toNat

theorem percentDecode_encodeByte (byte : UInt8) (rest : List Char) :
    percentDecode (encodeByte byte ++ rest) = byte :: percentDecode rest := by
  have bounded := byte.toNat_lt
  have high := hexValue?_hexDigit (show byte.toNat / 16 < 16 by omega)
  have low := hexValue?_hexDigit (show byte.toNat % 16 < 16 by omega)
  simp only [encodeByte, List.cons_append, List.nil_append, percentDecode, high, low,
    ofNat_digits]

theorem percentDecode_encodeBytes (bytes : List UInt8) (rest : List Char) :
    percentDecode (bytes.flatMap encodeByte ++ rest) = bytes ++ percentDecode rest := by
  induction bytes with
  | nil => rfl
  | cons byte bytes induction =>
      rw [List.flatMap_cons, List.append_assoc, percentDecode_encodeByte, induction,
        List.cons_append]

theorem percentDecode_cons {character : Char} (notPercent : character ≠ '%') (rest : List Char) :
    percentDecode (character :: rest) = Utf8.encodeCharacter character ++ percentDecode rest := by
  rw [percentDecode]
  intro high low others same
  exact absurd same notPercent

theorem percentDecode_percentEncode {allowed : Allowed} (notPercent : allowed '%' = false)
    (text rest : List Char) :
    percentDecode (percentEncode allowed text ++ rest) =
      Utf8.encode text ++ percentDecode rest := by
  induction text with
  | nil => rfl
  | cons character text induction =>
      have first : ∀ rest, percentDecode (percentEncodeCharacter allowed character ++ rest) =
          Utf8.encodeCharacter character ++ percentDecode rest := by
        intro rest
        rw [percentEncodeCharacter]
        split
        · rename_i isAllowed
          have different : character ≠ '%' := by
            rintro rfl
            simp [notPercent] at isAllowed
          exact percentDecode_cons different rest
        · exact percentDecode_encodeBytes _ rest
      have encoded : percentEncode allowed (character :: text) ++ rest =
          percentEncodeCharacter allowed character ++ (percentEncode allowed text ++ rest) := by
        simp [percentEncode]
      rw [encoded, first, induction]
      simp [Utf8.encode]

/-! What stands in an encoded text. -/

def isHexDigit (character : Char) : Bool :=
  isAsciiDigit character || ('A' ≤ character && character ≤ 'F')

theorem isHexDigit_hexDigit {value : Nat} (bounded : value < 16) :
    isHexDigit (hexDigit value) = true := by
  have every : ∀ value : Fin 16, isHexDigit (hexDigit value) = true := by decide +kernel
  exact every ⟨value, bounded⟩

theorem mem_encodeByte {byte : UInt8} {character : Char} (member : character ∈ encodeByte byte) :
    character = '%' ∨ isHexDigit character = true := by
  have bounded := byte.toNat_lt
  simp only [encodeByte, List.mem_cons, List.not_mem_nil, or_false] at member
  rcases member with isPercent | rfl | rfl
  · exact .inl isPercent
  · exact .inr (isHexDigit_hexDigit (by omega))
  · exact .inr (isHexDigit_hexDigit (by omega))

theorem mem_percentEncode {allowed : Allowed} {text : List Char} {character : Char}
    (member : character ∈ percentEncode allowed text) :
    (character ∈ text ∧ allowed character = true) ∨ character = '%' ∨
      isHexDigit character = true := by
  rw [percentEncode, List.mem_flatMap] at member
  rcases member with ⟨original, inText, member⟩
  rw [percentEncodeCharacter] at member
  split at member
  · rename_i isAllowed
    rw [List.mem_singleton.mp member]
    exact .inl ⟨inText, (Bool.and_eq_true_iff.mp isAllowed).2⟩
  · rcases List.mem_flatMap.mp member with ⟨byte, _, member⟩
    exact .inr (mem_encodeByte member)

section NotMember

variable {allowed : Allowed} {character : Char}

/-- An encoded text holds none of the other characters. -/
theorem not_mem_percentEncode (notAllowed : allowed character = false)
    (notPercent : character ≠ '%') (notDigit : isHexDigit character = false) (text : List Char) :
    character ∉ percentEncode allowed text := by
  intro member
  rcases mem_percentEncode member with ⟨_, isAllowed⟩ | isPercent | isDigit
  · exact Bool.false_ne_true (notAllowed.symm.trans isAllowed)
  · exact notPercent isPercent
  · exact Bool.false_ne_true (notDigit.symm.trans isDigit)

/-- Encoding brings in nothing but its own characters. -/
theorem not_mem_percentEncode_of_not_mem (notPercent : character ≠ '%')
    (notDigit : isHexDigit character = false) {text : List Char} (notMember : character ∉ text) :
    character ∉ percentEncode allowed text := by
  intro member
  rcases mem_percentEncode member with ⟨inText, _⟩ | isPercent | isDigit
  · exact notMember inText
  · exact notPercent isPercent
  · exact Bool.false_ne_true (notDigit.symm.trans isDigit)

end NotMember

theorem toNat_of_hexValue? {character : Char} (isHex : (hexValue? character).isSome) :
    0x30 ≤ character.toNat ∧ character.toNat ≤ 0x66 := by
  simp only [hexValue?, Char.le_def, UInt32.le_iff_toNat_le] at isHex
  simp only [Char.toNat]
  split at isHex
  · rename_i decimal
    exact ⟨decimal.1, Nat.le_trans decimal.2 (by decide)⟩
  split at isHex
  · rename_i upper
    exact ⟨Nat.le_trans (by decide) upper.1, Nat.le_trans upper.2 (by decide)⟩
  split at isHex
  · rename_i lower
    exact ⟨Nat.le_trans (by decide) lower.1, lower.2⟩
  · cases isHex

/-! Encoding goes character by character. -/

theorem percentEncode_append (allowed : Allowed) (text rest : List Char) :
    percentEncode allowed (text ++ rest) =
      percentEncode allowed text ++ percentEncode allowed rest := by
  simp [percentEncode]

theorem percentEncodeCharacter_ne_nil (allowed : Allowed) (character : Char) :
    percentEncodeCharacter allowed character ≠ [] := by
  rcases Utf8.leading?_encodeCharacter character [] with ⟨lead, continuations, encoded, _⟩
  rw [percentEncodeCharacter, encoded]
  split
  · exact List.cons_ne_nil _ _
  · exact List.cons_ne_nil _ _

theorem percentEncode_eq_nil_iff {allowed : Allowed} {text : List Char} :
    percentEncode allowed text = [] ↔ text = [] := by
  cases text with
  | nil => exact Iff.rfl
  | cons character rest =>
      simp [percentEncode, percentEncodeCharacter_ne_nil]

end MetricWatch.Url
