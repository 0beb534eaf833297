import MetricWatch.Text.Utf8

namespace MetricWatch

/-! Places in encoded text. A place counts the bytes in front of it. There is
nothing to be found beyond the end, and no text can be cut within a character. -/

inductive Misplacement where
  | beyondEnd
  | withinCharacter

namespace Utf8

def byteAt (bytes : List UInt8) (place : Nat) : Except Misplacement UInt8 :=
  match bytes[place]? with
  | some byte => .ok byte
  | none => .error .beyondEnd

def bytesFrom (bytes : List UInt8) (place : Nat) : Except Misplacement (List UInt8) :=
  if place ≤ bytes.length then .ok (bytes.drop place) else .error .beyondEnd

/-- Whether a byte is a character by itself that has a property. -/
def isCharacter (holds : Char → Bool) (byte : UInt8) : Bool :=
  byte.toNat < 0x80 && holds (Char.ofNat byte.toNat)

def isAt (holds : Char → Bool) (bytes : List UInt8) (place : Nat) : Bool :=
  bytes[place]?.any (isCharacter holds)

/-- The parts of a text in front of a place and behind it. -/
def cut (text : List Char) (place : Nat) : Except Misplacement (List Char × List Char) :=
  match text with
  | [] => if place = 0 then .ok ([], []) else .error .beyondEnd
  | character :: rest =>
      if place = 0 then .ok ([], character :: rest)
      else if place < character.utf8Size then .error .withinCharacter
      else (cut rest (place - character.utf8Size)).map fun parts =>
        (character :: parts.1, parts.2)

example : cut "1é".toList 2 = .error .withinCharacter := by rfl

theorem length_encode_cons (character : Char) (text : List Char) :
    (encode (character :: text)).length = character.utf8Size + (encode text).length := by
  rw [encode, List.flatMap_cons, List.length_append, encodeCharacter,
    String.length_utf8EncodeChar, encode]

theorem cut_append (front behind : List Char) :
    cut (front ++ behind) (encode front).length = .ok (front, behind) := by
  induction front with
  | nil => cases behind <;> rfl
  | cons character front induction =>
      have positive := character.utf8Size_pos
      rw [length_encode_cons, List.cons_append, cut, if_neg (by omega), if_neg (by omega),
        Nat.add_sub_cancel_left, induction]
      rfl

theorem eq_append_of_cut {text : List Char} {place : Nat} {parts : List Char × List Char}
    (isCut : cut text place = .ok parts) :
    text = parts.1 ++ parts.2 ∧ (encode parts.1).length = place := by
  induction text generalizing place parts with
  | nil =>
      rw [cut] at isCut
      split at isCut
      · cases isCut
        exact ⟨rfl, Eq.symm ‹place = 0›⟩
      · cases isCut
  | cons character rest induction =>
      rw [cut] at isCut
      split at isCut
      · cases isCut
        exact ⟨rfl, Eq.symm ‹place = 0›⟩
      · split at isCut
        · cases isCut
        · cases found : cut rest (place - character.utf8Size) with
          | error misplacement =>
              rw [found] at isCut
              cases isCut
          | ok shorter =>
              rw [found] at isCut
              cases isCut
              have ⟨isRest, isLength⟩ := induction found
              rw [length_encode_cons, isLength]
              exact ⟨congrArg (character :: ·) isRest, Nat.add_sub_cancel' (by omega)⟩

/-- A text can be cut exactly behind its characters. -/
theorem cut_eq_ok_iff {text front behind : List Char} {place : Nat} :
    cut text place = .ok (front, behind) ↔
      text = front ++ behind ∧ (encode front).length = place := by
  constructor
  · exact eq_append_of_cut
  · rintro ⟨rfl, rfl⟩
    exact cut_append front behind

end Utf8

end MetricWatch
