import MetricWatch.Json.Fault
import MetricWatch.Text.Utf8

namespace MetricWatch.Json

/-! Quoted text. `write` puts a text between quotes and escapes what a document
may not hold as it is; `read` gives the text back from the glyphs after the
opening quote. `skim` only finds the closing quote: it checks the shape of the
escapes, but neither what they stand for nor the other characters. -/

namespace Quoted

def isControl (character : Char) : Bool :=
  character.toNat < 0x20

/-! Escapes of one letter. -/

def letterOf? (character : Char) : Option Char :=
  match character with
  | '"' => some '"'
  | '\\' => some '\\'
  | '\x08' => some 'b'
  | '\x0c' => some 'f'
  | '\n' => some 'n'
  | '\r' => some 'r'
  | '\t' => some 't'
  | _ => none

def ofLetter? (letter : Char) : Option Char :=
  match letter with
  | '"' => some '"'
  | '\\' => some '\\'
  | '/' => some '/'
  | 'b' => some '\x08'
  | 'f' => some '\x0c'
  | 'n' => some '\n'
  | 'r' => some '\r'
  | 't' => some '\t'
  | _ => none

theorem ofLetter?_of_letterOf? {character letter : Char}
    (escaped : letterOf? character = some letter) : ofLetter? letter = some character := by
  simp only [letterOf?] at escaped
  split at escaped <;> simp_all [ofLetter?] <;> subst escaped <;> rfl

def escape (character : Char) : List Char :=
  match letterOf? character with
  | some letter => ['\\', letter]
  | none =>
      if isControl character then
        let code := character.toNat
        ['\\', 'u', '0', '0', Nat.digitChar (code / 16), Nat.digitChar (code % 16)]
      else [character]

/-- A text between quotes. -/
def write (text : List Char) : List Char :=
  '"' :: (text.flatMap escape ++ ['"'])

/-! Escapes of four hexadecimal digits stand for UTF-16 code units. -/

def hexDigit? : Glyph → Option Nat
  | none => none
  | some character =>
      if '0' ≤ character ∧ character ≤ '9' then some (character.toNat - '0'.toNat)
      else if 'a' ≤ character ∧ character ≤ 'f' then some (character.toNat - 'a'.toNat + 10)
      else if 'A' ≤ character ∧ character ≤ 'F' then some (character.toNat - 'A'.toNat + 10)
      else none

def codeUnit? (first second third fourth : Glyph) : Option Nat := do
  let high ← hexDigit? first
  let upper ← hexDigit? second
  let lower ← hexDigit? third
  let low ← hexDigit? fourth
  return high * 0x1000 + upper * 0x100 + lower * 0x10 + low

def isLeadingSurrogate (unit : Nat) : Bool :=
  0xD800 ≤ unit && unit < 0xDC00

def isTrailingSurrogate (unit : Nat) : Bool :=
  0xDC00 ≤ unit && unit < 0xE000

def pairedCharacter (leading trailing : Nat) : Char :=
  Char.ofNat ((leading - 0xD800) * 0x400 + (trailing - 0xDC00) + 0x10000)

/-- An escape that breaks off: with less than four bytes left the text ends in
it, otherwise it holds something else than digits. -/
def brokenUnit (remaining : List Glyph) : Fault :=
  if Utf8.size remaining < 4 then .endInText else .invalidEscape

/-- The text read so far is checked for bytes that are no characters only once
its closing quote is found. -/
def finish (content : List Glyph) (rest : List Glyph) : Except Fault (String × List Glyph) :=
  if content.all Option.isSome then
    .ok (String.ofList (content.reverse.map Utf8.glyphCharacter), rest)
  else .error .invalidCodePoint

/-- Reading keeps the glyphs of the text so far, the last one first, and a leading
surrogate that waits for the other half of its pair. -/
def readFrom (leading : Option Nat) (content : List Glyph) :
    List Glyph → Except Fault (String × List Glyph)
  | [] => .error .endInText
  | some '\\' :: some 'u' :: first :: second :: third :: fourth :: rest =>
      match codeUnit? first second third fourth, leading with
      | none, _ => .error .invalidEscape
      | some unit, none =>
          if isTrailingSurrogate unit then .error .loneSurrogate
          else if isLeadingSurrogate unit then readFrom (some unit) content rest
          else readFrom none (some (Char.ofNat unit) :: content) rest
      | some unit, some leadingUnit =>
          if isTrailingSurrogate unit then
            readFrom none (some (pairedCharacter leadingUnit unit) :: content) rest
          else .error .loneSurrogate
  | some '\\' :: some 'u' :: short => .error (brokenUnit short)
  | some '\\' :: [] => .error .endInText
  | some '\\' :: letter :: rest =>
      if leading.isSome then .error .unpairedSurrogate
      else
        match letter.bind ofLetter? with
        | some character => readFrom none (some character :: content) rest
        | none => .error .invalidEscape
  | glyph :: rest =>
      if leading.isSome then .error .unpairedSurrogate
      else
        match glyph with
        | some '"' => finish content rest
        | some character =>
            if isControl character then .error .controlCharacter
            else readFrom none (some character :: content) rest
        | none => readFrom none (none :: content) rest

/-- The text up to the closing quote, and the glyphs behind it. -/
def read (glyphs : List Glyph) : Except Fault (String × List Glyph) :=
  readFrom none [] glyphs

/-- The glyphs behind the closing quote. -/
def skim : List Glyph → Except Fault (List Glyph)
  | [] => .error .endInText
  | some '\\' :: some 'u' :: first :: second :: third :: fourth :: rest =>
      if (codeUnit? first second third fourth).isSome then skim rest
      else .error .invalidEscape
  | some '\\' :: some 'u' :: short => .error (brokenUnit short)
  | some '\\' :: [] => .error .endInText
  | some '\\' :: letter :: rest =>
      if (letter.bind ofLetter?).isSome then skim rest else .error .invalidEscape
  | some '"' :: rest => .ok rest
  | some character :: rest =>
      if isControl character then .error .controlCharacter else skim rest
  | none :: rest => skim rest

example : write "a\"\n\x01".toList = "\"a\\\"\\n\\u0001\"".toList := by decide +kernel

theorem length_lt_of_skim {glyphs rest : List Glyph} (found : skim glyphs = .ok rest) :
    rest.length < glyphs.length := by
  fun_induction skim glyphs with
  | case1 | case3 | case4 | case5 | case7 | case9 => cases found
  | case2 | case6 | case10 | case11 =>
      rename_i induction
      have shorter := induction found
      simp only [List.length_cons]
      omega
  | case8 =>
      cases found
      simp

end Quoted

end MetricWatch.Json
