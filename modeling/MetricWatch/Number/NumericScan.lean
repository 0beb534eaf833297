import MetricWatch.Number.NumericPrefix
import MetricWatch.Text.Place

namespace MetricWatch

/-! The number at the start of a text, found on its bytes. A place moves over the
sign, the digits, the point and the exponent, and what has been passed in the end
is cut off and read as a number. -/

/-- A text that is a number as a whole. There are words for infinity and for no
number as well, in small or capital letters. -/
def readNumber? (text : List Char) : Option Binary64 :=
  let (negative, unsigned) := Numeral.splitSign text
  match Numeral.split? unsigned with
  | some (numeral, []) => some (.number negative numeral.decimal.magnitude)
  | _ =>
      let word := unsigned.map Char.toLower
      if word = "inf".toList ∨ word = "infinity".toList then some (.number negative .infinity)
      else if word = "nan".toList then some .nan
      else none

example : readNumber? "-.5e1".toList = some (.ofBits 0xC014000000000000) := by decide +kernel

example : readNumber? "1e".toList = none := by decide +kernel

/-- What a scan comes upon: infinity as a word, no digits where they should be, or
a numeral up to a place. The text up to there is read once more. -/
inductive NumericScan where
  | infinity (negative : Bool)
  | noDigits
  | numeral (finish : Nat) (number? : Option Binary64)

namespace NumericScan

def number : NumericScan → Binary64
  | .infinity negative => .number negative .infinity
  | .noDigits => .nan
  | .numeral _ number? => number?.getD .nan

def isSign (character : Char) : Bool :=
  character == '+' || character == '-'

def isMinus (character : Char) : Bool :=
  character == '-'

def isPoint (character : Char) : Bool :=
  character == '.'

def isExponentMark (character : Char) : Bool :=
  character == 'e' || character == 'E'

section Bytes

variable (bytes : List UInt8)

def afterSign (place : Nat) : Nat :=
  if Utf8.isAt isSign bytes place then place + 1 else place

def countDigits (place : Nat) : Except Misplacement Nat := do
  let behind ← Utf8.bytesFrom bytes place
  return (behind.takeWhile (Utf8.isCharacter isDecimalDigit)).length

/-- The number of digits behind a point, and the place behind them. A point without
digits on either side is not passed. -/
def afterFraction (wholeDigits place : Nat) : Except Misplacement (Nat × Nat) := do
  if Utf8.isAt isPoint bytes place then
    let digits ← countDigits bytes (place + 1)
    return (digits, if 0 < wholeDigits ∨ 0 < digits then place + 1 + digits else place)
  else
    return (0, place)

/-- An exponent without digits is not passed. -/
def afterExponent (place : Nat) : Except Misplacement Nat := do
  if Utf8.isAt isExponentMark bytes place then
    let first := afterSign bytes (place + 1)
    let digits ← countDigits bytes first
    return if 0 < digits then first + digits else place
  else
    return place

end Bytes

/-- What has no digits on either side of the point is no numeral. -/
def numeralFrom (text : List Char) (start : Nat) : Except Misplacement NumericScan := do
  let bytes := Utf8.encode text
  let wholeDigits ← countDigits bytes start
  let fraction ← afterFraction bytes wholeDigits (start + wholeDigits)
  if wholeDigits = 0 ∧ fraction.1 = 0 then
    return .noDigits
  else
    let finish ← afterExponent bytes fraction.2
    let parts ← Utf8.cut text finish
    return .numeral finish (readNumber? parts.1)

/-- A text without white space in front. -/
def ofTrimmed (text : List Char) : Except Misplacement NumericScan := do
  let bytes := Utf8.encode text
  let start := afterSign bytes 0
  let parts ← Utf8.cut text start
  if infinityWord.isPrefixOf parts.2 then
    let first ← Utf8.byteAt bytes 0
    return .infinity (Utf8.isCharacter isMinus first)
  else
    numeralFrom text start

def ofText (text : List Char) : Except Misplacement NumericScan :=
  if trim text = "+Inf".toList then .ok (.infinity false)
  else if trim text = "-Inf".toList then .ok (.infinity true)
  else ofTrimmed (trimStart text)

example : (ofText " -1.5e+3é".toList).toOption.map number = some (.ofBits 0xC097700000000000) := by
  decide +kernel

end NumericScan

end MetricWatch
