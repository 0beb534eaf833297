import MetricWatch.Proofs.Url.Form

namespace MetricWatch.Url

/-! Texts that are encoded to stand for themselves within a query. Nothing of a text is lost in
its encoding, and only texts that need no encoding stay as they are. -/

/-- The characters that an encoding shows as they are. -/
def untouched : List Char :=
  "ABCDEFGHIJKLMNOPQRSTUVWXYZabcdefghijklmnopqrstuvwxyz0123456789-_.!~*'()".toList

def upperHexDigits : List Char :=
  "0123456789ABCDEF".toList

/-- Untouched characters, and bytes as percent signs with two digits. -/
inductive IsEncoded : List Char → Prop
  | nil : IsEncoded []
  | plain {character : Char} {rest : List Char} :
      character ∈ untouched → IsEncoded rest → IsEncoded (character :: rest)
  | escape {high low : Char} {rest : List Char} :
      high ∈ upperHexDigits → low ∈ upperHexDigits → IsEncoded rest →
        IsEncoded ('%' :: high :: low :: rest)

/-- An encoding of texts that can be undone in both ways of decoding, goes character by character
and changes all texts but those that need none. -/
structure IsLossless (encoding : List Char → List Char) : Prop where
  isEncoded : ∀ text, IsEncoded (encoding text)
  decodedBytes : ∀ text, percentDecode (encoding text) = Utf8.encode text
  decodedText : ∀ text, Utf8.lossyText (percentDecode (encoding text)) = text
  readByForm : ∀ text : String, formText (encoding text.toList) = text
  append : ∀ text rest, encoding (text ++ rest) = encoding text ++ encoding rest
  injective : ∀ text other, encoding text = encoding other ↔ text = other
  twice : ∀ text, encoding (encoding text) = encoding text ↔
    ∀ character ∈ text, character ∈ untouched

/-! The characters that stay. -/

theorem isAscii_of_allowedInComponent {character : Char}
    (isAllowed : allowedInComponent character = true) : isAscii character = true := by
  have bound : character.toNat ≤ 0x7E := by
    simp only [allowedInComponent, isAsciiAlphanumeric, isAsciiLetter, isAsciiDigit,
      Bool.or_eq_true, Bool.and_eq_true, decide_eq_true_eq, Char.le_def, UInt32.le_iff_toNat_le,
      List.contains_iff_mem] at isAllowed
    rcases isAllowed with ((lower | upper) | digit) | mark
    · exact Nat.le_trans lower.2 (by decide)
    · exact Nat.le_trans upper.2 (by decide)
    · exact Nat.le_trans digit.2 (by decide)
    · have marks : ['-', '_', '.', '!', '~', '*', '\'', '(', ')'].all (·.toNat ≤ 0x7E) = true := by
        decide
      exact of_decide_eq_true (List.all_eq_true.mp marks character mark)
  exact decide_eq_true (Nat.lt_succ_of_le (Nat.le_succ_of_le bound))

theorem allowedInComponent_iff {character : Char} :
    allowedInComponent character = true ↔ character ∈ untouched := by
  constructor
  · intro isAllowed
    have every : ∀ code : Fin 128, allowedInComponent (Char.ofNat code) = true →
        Char.ofNat code ∈ untouched := by
      decide +kernel
    have isAscii := of_decide_eq_true (isAscii_of_allowedInComponent isAllowed)
    have isUntouched := every ⟨character.toNat, isAscii⟩
    rw [Char.ofNat_toNat] at isUntouched
    exact isUntouched isAllowed
  · have every : untouched.all allowedInComponent = true := by decide +kernel
    exact List.all_eq_true.mp every character

theorem staysInComponent_iff {character : Char} :
    (isAscii character && allowedInComponent character) = true ↔ character ∈ untouched := by
  rw [Bool.and_eq_true, ← allowedInComponent_iff]
  exact and_iff_right_of_imp isAscii_of_allowedInComponent

/-! What an encoding is made of. -/

theorem hexDigit_mem {value : Nat} (bounded : value < 16) : hexDigit value ∈ upperHexDigits := by
  have every : ∀ value : Fin 16, hexDigit value ∈ upperHexDigits := by decide +kernel
  exact every ⟨value, bounded⟩

theorem isEncoded_encodeBytes (bytes : List UInt8) {rest : List Char} (isEncoded : IsEncoded rest) :
    IsEncoded (bytes.flatMap encodeByte ++ rest) := by
  induction bytes with
  | nil => exact isEncoded
  | cons byte bytes induction =>
      have bounded := byte.toNat_lt
      rw [List.flatMap_cons, List.append_assoc]
      exact .escape (hexDigit_mem (by omega)) (hexDigit_mem (by omega)) induction

theorem isEncoded_encodeComponent (text : List Char) : IsEncoded (encodeComponent text) := by
  induction text with
  | nil => exact .nil
  | cons character text induction =>
      rw [encodeComponent, percentEncode, List.flatMap_cons, percentEncodeCharacter]
      split
      case isTrue stays => exact .plain (staysInComponent_iff.mp stays) induction
      case isFalse => exact isEncoded_encodeBytes _ induction

/-! Encoding makes a text longer, unless all its characters may stay. -/

section Length

variable {allowed : Allowed}

theorem length_encodeBytes (bytes : List UInt8) :
    (bytes.flatMap encodeByte).length = bytes.length * 3 := by
  induction bytes with
  | nil => rfl
  | cons byte bytes induction =>
      rw [List.flatMap_cons, List.length_append, induction, List.length_cons, Nat.add_one_mul,
        Nat.add_comm]
      rfl

theorem length_percentEncodeCharacter {character : Char}
    (encoded : (isAscii character && allowed character) = false) :
    1 < (percentEncodeCharacter allowed character).length := by
  have ⟨lead, continuations, isEncoding, _⟩ := Utf8.leading?_encodeCharacter character []
  rw [percentEncodeCharacter, encoded, if_neg Bool.false_ne_true, length_encodeBytes, isEncoding,
    List.length_cons]
  omega

theorem length_le_percentEncode (text : List Char) :
    text.length ≤ (percentEncode allowed text).length := by
  induction text with
  | nil => exact Nat.le_refl 0
  | cons character text induction =>
      have some : 0 < (percentEncodeCharacter allowed character).length :=
        List.length_pos_iff.mpr (percentEncodeCharacter_ne_nil allowed character)
      rw [percentEncode, List.flatMap_cons, List.length_append, List.length_cons, ← percentEncode]
      omega

theorem percentEncode_eq_self_iff {text : List Char} :
    percentEncode allowed text = text ↔
      ∀ character ∈ text, (isAscii character && allowed character) = true := by
  induction text with
  | nil => exact iff_of_true rfl nofun
  | cons character text induction =>
      rw [percentEncode, List.flatMap_cons, List.forall_mem_cons, ← percentEncode]
      cases stays : isAscii character && allowed character with
      | true =>
          rw [percentEncodeCharacter, if_pos stays, List.singleton_append, List.cons_inj_right,
            induction]
          exact (and_iff_right rfl).symm
      | false =>
          have longer := length_percentEncodeCharacter stays
          have notShorter : text.length ≤ (percentEncode allowed text).length :=
            length_le_percentEncode text
          refine iff_of_false (fun same => ?_) fun all => Bool.false_ne_true all.1
          have sameLength := congrArg List.length same
          rw [List.length_append, List.length_cons] at sameLength
          omega

end Length

theorem decoded_encodeComponent (text : List Char) :
    percentDecode (encodeComponent text) = Utf8.encode text := by
  have notPercent : allowedInComponent '%' = false := rfl
  have decoded := percentDecode_percentEncode notPercent text []
  rwa [List.append_nil, percentDecode, List.append_nil] at decoded

theorem lossyText_encodeComponent (text : List Char) :
    Utf8.lossyText (percentDecode (encodeComponent text)) = text := by
  rw [decoded_encodeComponent, Utf8.lossyText_encode]

theorem encodeComponent_inj {text other : List Char} :
    encodeComponent text = encodeComponent other ↔ text = other := by
  constructor
  · intro same
    rw [← lossyText_encodeComponent text, same, lossyText_encodeComponent]
  · exact congrArg encodeComponent

/-- A text can be got back from its encoding, by whoever decodes it. -/
theorem isLossless_encodeComponent : IsLossless encodeComponent where
  isEncoded := isEncoded_encodeComponent
  decodedBytes := decoded_encodeComponent
  decodedText := lossyText_encodeComponent
  readByForm := formText_percentEncode rfl rfl
  append := percentEncode_append allowedInComponent
  injective := fun _ _ => encodeComponent_inj
  twice := by
    intro text
    simp only [encodeComponent_inj, ← staysInComponent_iff]
    exact percentEncode_eq_self_iff

example : encodeComponent "50%25 +é".toList = "50%2525%20%2B%C3%A9".toList := by decide +kernel

end MetricWatch.Url
