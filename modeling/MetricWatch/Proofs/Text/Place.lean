import MetricWatch.Proofs.Text.Utf8
import MetricWatch.Text.Place

namespace MetricWatch.Utf8

/-! Places at which a text can be cut, and what the bytes behind them tell about the rest of the
text. ASCII characters are told by a single byte, others never by their first one. -/

theorem encodeCharacter_of_ascii {character : Char} (isAscii : character.toNat < 0x80) :
    encodeCharacter character = [UInt8.ofNat character.toNat] :=
  if_pos (Nat.le_of_lt_succ isAscii)

theorem exists_lead_of_not_ascii {character : Char} (notAscii : ¬character.toNat < 0x80) :
    ∃ lead continuations, encodeCharacter character = lead :: continuations ∧
      ¬lead.toNat < 0x80 := by
  have encoded : encodeCharacter character = String.utf8EncodeChar character := rfl
  have large : ∀ bits, bits < 0x80 → ¬(UInt8.ofNat (bits + 0x80)).toNat < 0x80 := by
    intro bits small
    rw [toNat_ofNat (by omega)]
    omega
  rw [encoded, String.utf8EncodeChar]
  simp only [show character.val.toNat = character.toNat from rfl]
  rw [if_neg (by omega)]
  split
  · exact ⟨_, _, rfl, large (_ + 0x40) (by omega)⟩
  · split
    · exact ⟨_, _, rfl, large (_ + 0x60) (by omega)⟩
    · exact ⟨_, _, rfl, large (_ + 0x70) (by omega)⟩

/-- A property that only ASCII characters have. -/
def IsAsciiOnly (holds : Char → Bool) : Prop :=
  ∀ character, holds character = true → character.toNat < 0x80

theorem isAsciiOnly_beq {mark : Char} (isAscii : mark.toNat < 0x80) : IsAsciiOnly (· == mark) := by
  intro character isMark
  rwa [eq_of_beq isMark]

theorem IsAsciiOnly.or {holds others : Char → Bool} (asciiOnly : IsAsciiOnly holds)
    (othersAsciiOnly : IsAsciiOnly others) :
    IsAsciiOnly fun character => holds character || others character := by
  intro character either
  rw [Bool.or_eq_true] at either
  exact either.elim (asciiOnly character) (othersAsciiOnly character)

section Bytes

variable {holds : Char → Bool} (asciiOnly : IsAsciiOnly holds)

include asciiOnly

/-- The first byte tells whether the first character has a property, and is all of it then. -/
theorem encode_cons_cases (character : Char) (text : List Char) :
    (holds character = true ∧ ∃ byte, encode (character :: text) = byte :: encode text ∧
        isCharacter holds byte = true) ∨
      holds character = false ∧ ∃ byte behind, encode (character :: text) = byte :: behind ∧
        isCharacter holds byte = false := by
  by_cases isAscii : character.toNat < 0x80
  · have isTold : isCharacter holds (UInt8.ofNat character.toNat) = holds character := by
      rw [isCharacter, toNat_ofNat (by omega), Char.ofNat_toNat, decide_eq_true isAscii,
        Bool.true_and]
    have encoded : encode (character :: text) = UInt8.ofNat character.toNat :: encode text := by
      rw [encode, List.flatMap_cons, encodeCharacter_of_ascii isAscii]
      rfl
    cases has : holds character with
    | true => exact .inl ⟨rfl, _, encoded, isTold.trans has⟩
    | false => exact .inr ⟨rfl, _, _, encoded, isTold.trans has⟩
  · have hasNot : holds character = false :=
      Bool.eq_false_iff.mpr fun has => isAscii (asciiOnly character has)
    rcases exists_lead_of_not_ascii isAscii with ⟨lead, continuations, encoded, notSmall⟩
    refine .inr ⟨hasNot, lead, continuations ++ encode text, ?_, ?_⟩
    · rw [encode, List.flatMap_cons, encoded]
      rfl
    · rw [isCharacter, decide_eq_false notSmall, Bool.false_and]

theorem any_head?_encode (text : List Char) :
    (encode text).head?.any (isCharacter holds) = text.head?.any holds := by
  cases text with
  | nil => rfl
  | cons character text =>
      rcases encode_cons_cases asciiOnly character text with
        ⟨has, byte, encoded, isTold⟩ | ⟨hasNot, byte, behind, encoded, isTold⟩
      · rw [encoded, List.head?_cons, List.head?_cons, Option.any_some, Option.any_some, isTold,
          has]
      · rw [encoded, List.head?_cons, List.head?_cons, Option.any_some, Option.any_some, isTold,
          hasNot]

theorem length_takeWhile_encode (text : List Char) :
    ((encode text).takeWhile (isCharacter holds)).length = (text.takeWhile holds).length := by
  induction text with
  | nil => rfl
  | cons character text induction =>
      rcases encode_cons_cases asciiOnly character text with
        ⟨has, byte, encoded, isTold⟩ | ⟨hasNot, byte, behind, encoded, isTold⟩
      · rw [encoded, List.takeWhile_cons_of_pos isTold, List.takeWhile_cons_of_pos has,
          List.length_cons, List.length_cons, induction]
      · rw [encoded, List.takeWhile_cons_of_neg (Bool.eq_false_iff.mp isTold),
          List.takeWhile_cons_of_neg (Bool.eq_false_iff.mp hasNot), List.length_nil,
          List.length_nil]

theorem length_encode_of_all {text : List Char} (all : ∀ character ∈ text, holds character = true) :
    (encode text).length = text.length := by
  induction text with
  | nil => rfl
  | cons character text induction =>
      have ⟨has, others⟩ := List.forall_mem_cons.mp all
      rcases encode_cons_cases asciiOnly character text with
        ⟨_, byte, encoded, _⟩ | ⟨hasNot, _⟩
      · rw [encoded, List.length_cons, List.length_cons, induction others]
      · rw [has] at hasNot
        cases hasNot

end Bytes

theorem encode_append (front behind : List Char) :
    encode (front ++ behind) = encode front ++ encode behind :=
  List.flatMap_append

/-- A place in front of a rest of a text. -/
def StandsBefore (text : List Char) (place : Nat) (rest : List Char) : Prop :=
  ∃ passed, text = passed ++ rest ∧ (encode passed).length = place

theorem standsBefore_start (text : List Char) : StandsBefore text 0 text :=
  ⟨[], rfl, rfl⟩

namespace StandsBefore

variable {text rest : List Char} {place : Nat} (stands : StandsBefore text place rest)

include stands

theorem exists_cut : ∃ passed, text = passed ++ rest ∧ cut text place = .ok (passed, rest) := by
  rcases stands with ⟨passed, isText, isPlace⟩
  exact ⟨passed, isText, cut_eq_ok_iff.mpr ⟨isText, isPlace⟩⟩

theorem drop_encode : place ≤ (encode text).length ∧ (encode text).drop place = encode rest := by
  rcases stands with ⟨passed, rfl, rfl⟩
  rw [encode_append]
  exact ⟨List.length_append ▸ Nat.le_add_right _ _, List.drop_left⟩

theorem bytesFrom_eq : bytesFrom (encode text) place = .ok (encode rest) := by
  have ⟨notBeyond, isRest⟩ := stands.drop_encode
  rw [bytesFrom, if_pos notBeyond, isRest]

variable {holds : Char → Bool} (asciiOnly : IsAsciiOnly holds)

include asciiOnly

theorem isAt_eq : isAt holds (encode text) place = rest.head?.any holds := by
  have ⟨_, isRest⟩ := stands.drop_encode
  rw [isAt, ← List.head?_drop, isRest, any_head?_encode asciiOnly]

theorem exists_byteAt {first : Char} {behind : List Char} (isRest : rest = first :: behind) :
    ∃ byte, byteAt (encode text) place = .ok byte ∧ isCharacter holds byte = holds first := by
  have ⟨_, isDropped⟩ := stands.drop_encode
  have isHead : (encode text)[place]? = (encode rest).head? := by
    rw [← isDropped, List.head?_drop]
  rcases encode_cons_cases asciiOnly first behind with
    ⟨has, byte, encoded, isTold⟩ | ⟨hasNot, byte, _, encoded, isTold⟩
  · exact ⟨byte, by rw [byteAt, isHead, isRest, encoded]; rfl, isTold.trans has.symm⟩
  · exact ⟨byte, by rw [byteAt, isHead, isRest, encoded]; rfl, isTold.trans hasNot.symm⟩

/-- A place is moved over characters that take a byte each. -/
theorem advance {passed behind : List Char} (isRest : rest = passed ++ behind)
    (all : ∀ character ∈ passed, holds character = true) :
    StandsBefore text (place + passed.length) behind := by
  rcases stands with ⟨front, isText, isPlace⟩
  refine ⟨front ++ passed, ?_, ?_⟩
  · rw [isText, isRest, List.append_assoc]
  · rw [encode_append, List.length_append, isPlace, length_encode_of_all asciiOnly all]

theorem next {first : Char} {behind : List Char} (isRest : rest = first :: behind)
    (has : holds first = true) : StandsBefore text (place + 1) behind :=
  stands.advance asciiOnly (isRest.trans List.singleton_append.symm)
    (List.forall_mem_singleton.mpr has)

end StandsBefore

end MetricWatch.Utf8
