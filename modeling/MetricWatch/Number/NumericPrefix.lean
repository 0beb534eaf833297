import MetricWatch.Number.Decimal
import MetricWatch.Text.WhiteSpace

namespace MetricWatch

/-! The number at the start of a text. After leading white space the longest
prefix counts that is a sign and then either the word `Infinity` or decimal
digits with an optional point and exponent; what follows it does not matter, and
a text without such a prefix is no number. -/

/-- A numeral as spelled: the digits before and after the point, and the exponent. -/
structure Numeral where
  whole : List Char
  fraction : List Char
  exponent : Int

namespace Numeral

def decimal (numeral : Numeral) : Decimal where
  coefficient := digitsValue (numeral.whole ++ numeral.fraction)
  exponent := numeral.exponent - (numeral.fraction.length : Int)

/-! The parts of a numeral are split off the front of a text one after the other.
A point counts if a digit stands on either side of it, an exponent only with a
digit of its own. -/

def splitSign : List Char → Bool × List Char
  | '-' :: rest => (true, rest)
  | '+' :: rest => (false, rest)
  | text => (false, text)

def splitDigits (text : List Char) : List Char × List Char :=
  (text.takeWhile isDecimalDigit, text.dropWhile isDecimalDigit)

def splitFraction (wholeIsEmpty : Bool) (text : List Char) : List Char × List Char :=
  match text with
  | '.' :: rest =>
      let (digits, remaining) := splitDigits rest
      if wholeIsEmpty && digits.isEmpty then ([], text) else (digits, remaining)
  | _ => ([], text)

def splitExponent (text : List Char) : Int × List Char :=
  match text with
  | mark :: rest =>
      if mark == 'e' || mark == 'E' then
        let (negative, unsigned) := splitSign rest
        let (digits, remaining) := splitDigits unsigned
        if digits.isEmpty then (0, text)
        else
          let size : Int := digitsValue digits
          (if negative then -size else size, remaining)
      else (0, text)
  | [] => (0, text)

def split? (text : List Char) : Option (Numeral × List Char) :=
  let (whole, afterWhole) := splitDigits text
  let (fraction, afterFraction) := splitFraction whole.isEmpty afterWhole
  if whole.isEmpty && fraction.isEmpty then none
  else
    let (exponent, remaining) := splitExponent afterFraction
    some (⟨whole, fraction, exponent⟩, remaining)

end Numeral

def infinityWord : List Char := "Infinity".toList

def readUnsignedPrefix (negative : Bool) (text : List Char) : Binary64 :=
  if infinityWord.isPrefixOf text then .number negative .infinity
  else
    match Numeral.split? text with
    | some (numeral, _) => .number negative numeral.decimal.magnitude
    | none => .nan

/-- The two infinities may also be spelled `+Inf` and `-Inf`, but only as the
whole text. -/
def readNumericPrefix (text : List Char) : Binary64 :=
  if trim text = "+Inf".toList then .infinity
  else if trim text = "-Inf".toList then .negativeInfinity
  else
    let (negative, unsigned) := Numeral.splitSign (trimStart text)
    readUnsignedPrefix negative unsigned

example : readNumericPrefix "12.5ms".toList = .ofBits 0x4029000000000000 := by decide +kernel

example : readNumericPrefix "+Inf x".toList = .nan := by decide +kernel

end MetricWatch
