import MetricWatch.Text.Utf8

namespace MetricWatch.Url

/-! Percent coding. Characters that may not stand in a text are replaced by the
bytes of their UTF-8 encoding, each written as a percent sign and two hexadecimal
digits. Characters outside ASCII never stay as they are. -/

def hexDigit (value : Nat) : Char :=
  if value < 10 then Char.ofNat ('0'.toNat + value) else Char.ofNat ('A'.toNat + (value - 10))

def hexValue? (character : Char) : Option Nat :=
  if '0' ≤ character ∧ character ≤ '9' then some (character.toNat - '0'.toNat)
  else if 'A' ≤ character ∧ character ≤ 'F' then some (character.toNat - 'A'.toNat + 10)
  else if 'a' ≤ character ∧ character ≤ 'f' then some (character.toNat - 'a'.toNat + 10)
  else none

theorem hexValue?_hexDigit {value : Nat} (bounded : value < 16) :
    hexValue? (hexDigit value) = some value := by
  have every : ∀ value : Fin 16, hexValue? (hexDigit value) = some value.val := by
    decide +kernel
  exact every ⟨value, bounded⟩

def encodeByte (byte : UInt8) : List Char :=
  ['%', hexDigit (byte.toNat / 16), hexDigit (byte.toNat % 16)]

/-! What stays as it is depends on the place in a URL. -/

abbrev Allowed := Char → Bool

def isAscii (character : Char) : Bool :=
  character.toNat < 0x80

def percentEncodeCharacter (allowed : Allowed) (character : Char) : List Char :=
  if isAscii character && allowed character then [character]
  else (Utf8.encodeCharacter character).flatMap encodeByte

/-- Every character that is not allowed is encoded. -/
def percentEncode (allowed : Allowed) (text : List Char) : List Char :=
  text.flatMap (percentEncodeCharacter allowed)

/-- Decoding gives bytes back. A percent sign without two digits behind it stands
for itself. -/
def percentDecode : List Char → List UInt8
  | [] => []
  | '%' :: high :: low :: rest =>
      match hexValue? high, hexValue? low with
      | some upper, some lower => UInt8.ofNat (upper * 16 + lower) :: percentDecode rest
      | _, _ => UInt8.ofNat '%'.toNat :: percentDecode (high :: low :: rest)
  | character :: rest => Utf8.encodeCharacter character ++ percentDecode rest

/-! The sets of the URL standard. -/

def isAsciiLetter (character : Char) : Bool :=
  ('a' ≤ character && character ≤ 'z') || ('A' ≤ character && character ≤ 'Z')

def isAsciiDigit (character : Char) : Bool :=
  '0' ≤ character && character ≤ '9'

def isAsciiAlphanumeric (character : Char) : Bool :=
  isAsciiLetter character || isAsciiDigit character

def allowedInOpaque : Allowed := fun character =>
  0x20 ≤ character.toNat && character.toNat < 0x7F

def allowedInFragment : Allowed := fun character =>
  allowedInOpaque character && !(['"', ' ', '<', '>', '`'].contains character)

def allowedInPath : Allowed := fun character =>
  allowedInFragment character && !(['#', '?', '{', '}'].contains character)

def allowedInUserInfo : Allowed := fun character =>
  allowedInPath character &&
    !(['/', ':', ';', '=', '@', '[', '\\', ']', '^', '|'].contains character)

def allowedInQuery : Allowed := fun character =>
  allowedInOpaque character && !(['"', ' ', '#', '<', '>'].contains character)

def allowedInSpecialQuery : Allowed := fun character =>
  allowedInQuery character && character != '\''

/-! What stays as it is in a part of a query that is to be taken literally. -/

def allowedInComponent : Allowed := fun character =>
  isAsciiAlphanumeric character ||
    ['-', '_', '.', '!', '~', '*', '\'', '(', ')'].contains character

/-- A text encoded so that it can stand for itself within a query. -/
def encodeComponent (text : List Char) : List Char :=
  percentEncode allowedInComponent text

example : encodeComponent "a b&é".toList = "a%20b%26%C3%A9".toList := by decide +kernel

example : percentDecode "a%20%zz%41".toList = Utf8.encode "a %zzA".toList := by decide +kernel

end MetricWatch.Url
