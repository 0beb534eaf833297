namespace MetricWatch

/-! UTF-16 code units, and the order of texts by them. Characters above U+FFFF
take two surrogates, so they come before the characters from U+E000 to U+FFFF. -/

namespace Utf16

def units (character : Char) : List Nat :=
  let code := character.toNat
  if code < 0x10000 then [code]
  else [0xD800 + (code - 0x10000) / 0x400, 0xDC00 + (code - 0x10000) % 0x400]

def encode (text : List Char) : List Nat :=
  text.flatMap units

/-- Whether units come before other ones at the first difference, or are the same
as far as they go. -/
def unitsNotAfter : List Nat → List Nat → Bool
  | [], _ => true
  | _ :: _, [] => false
  | left :: lefts, right :: rights =>
      left < right || (left == right && unitsNotAfter lefts rights)

/-- Whether a text comes before another one, or is the same. -/
def notAfter (left right : String) : Bool :=
  unitsNotAfter (encode left.toList) (encode right.toList)

example : units '😀' = [0xD83D, 0xDE00] := by decide

example : notAfter "😀" "～" ∧ "～" < "😀" := by decide +kernel

end Utf16

end MetricWatch
