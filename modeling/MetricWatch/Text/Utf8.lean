namespace MetricWatch

/-! UTF-8. Bytes are read as glyphs: a glyph is a character, or nothing for a
byte that belongs to no well-formed character. -/

abbrev Glyph := Option Char

namespace Utf8

def encodeCharacter (character : Char) : List UInt8 :=
  String.utf8EncodeChar character

def encode (text : List Char) : List UInt8 :=
  text.flatMap encodeCharacter

/-- The six low bits of a continuation byte. -/
def continuation? (byte : UInt8) : Option Nat :=
  if 0x80 ≤ byte.toNat ∧ byte.toNat < 0xC0 then some (byte.toNat - 0x80) else none

def character? (code : Nat) : Option Char :=
  if valid : code.isValidChar then some (Char.ofNatAux code valid) else none

/-- The character whose encoding a byte begins, with the number of continuation
bytes it takes. Encodings longer than necessary, surrogates and values above the
last code point are no characters. -/
def leading? (byte : UInt8) (rest : List UInt8) : Option (Char × Nat) :=
  let lead := byte.toNat
  if lead < 0x80 then (character? lead).map (·, 0)
  else if lead < 0xC2 then none
  else if lead < 0xE0 then
    match rest with
    | second :: _ => do
        let low ← continuation? second
        let character ← character? ((lead - 0xC0) * 0x40 + low)
        return (character, 1)
    | [] => none
  else if lead < 0xF0 then
    match rest with
    | second :: third :: _ => do
        let middle ← continuation? second
        let low ← continuation? third
        let code := (lead - 0xE0) * 0x1000 + middle * 0x40 + low
        if code < 0x800 then none
        else do
          let character ← character? code
          return (character, 2)
    | _ => none
  else if lead < 0xF5 then
    match rest with
    | second :: third :: fourth :: _ => do
        let high ← continuation? second
        let middle ← continuation? third
        let low ← continuation? fourth
        let code := (lead - 0xF0) * 0x40000 + high * 0x1000 + middle * 0x40 + low
        if code < 0x10000 then none
        else do
          let character ← character? code
          return (character, 3)
    | _ => none
  else none

/-- The glyphs that some bytes spell, one after the other. -/
def glyphs (bytes : List UInt8) : List Glyph :=
  match bytes with
  | [] => []
  | byte :: rest =>
      match leading? byte rest with
      | some (character, continuations) =>
          some character :: glyphs (rest.drop continuations)
      | none => none :: glyphs rest
termination_by bytes.length
decreasing_by
  all_goals simp only [List.length_drop, List.length_cons]
  all_goals omega

example : glyphs [0x61, 0xC3, 0xA9, 0xFF, 0xF0, 0x9F, 0x98, 0x80] =
    [some 'a', some 'é', none, some '😀'] := by decide +kernel

/-- How many bytes a glyph was read from. -/
def glyphSize : Glyph → Nat
  | some character => character.utf8Size
  | none => 1

def size : List Glyph → Nat
  | [] => 0
  | glyph :: rest => glyphSize glyph + size rest

/-- Text with every malformed byte replaced by U+FFFD. -/
def glyphCharacter (glyph : Glyph) : Char :=
  glyph.getD '\uFFFD'

end Utf8

end MetricWatch
