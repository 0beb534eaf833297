import MetricWatch.Number.Shortest

namespace MetricWatch

/-- How a double precision number is written in decimal digits. Numbers whose
first digit stands at a power of ten from `plainFrom` up to and excluding
`plainBelow` are written plainly, others with an exponent; a missing bound does
not limit. -/
structure DecimalStyle where
  plainFrom : Option Int
  plainBelow : Option Int
  wholeFraction : Bool
  tie : TieRule

namespace DecimalStyle

def writesPlainly (style : DecimalStyle) (leading : Int) : Bool :=
  style.plainFrom.all (fun lowest => lowest ≤ leading) &&
    style.plainBelow.all (fun limit => leading < limit)

/-- The digits of a coefficient without its trailing zeros. -/
def significantDigits (coefficient : Nat) : List Char :=
  ((decimalDigits coefficient).reverse.dropWhile (· == '0')).reverse

def plainText (wholeFraction : Bool) (digits : List Char) (leading : Int) : List Char :=
  if leading < 0 then
    '0' :: '.' :: (List.replicate ((-leading).toNat - 1) '0' ++ digits)
  else
    let wholeLength := leading.toNat + 1
    if digits.length ≤ wholeLength then
      digits ++ List.replicate (wholeLength - digits.length) '0' ++
        (if wholeFraction then ['.', '0'] else [])
    else
      digits.take wholeLength ++ '.' :: digits.drop wholeLength

def exponentText (digits : List Char) (leading : Int) : List Char :=
  let mantissa :=
    match digits with
    | first :: second :: rest => first :: '.' :: second :: rest
    | short => short
  let sign := if leading < 0 then '-' else '+'
  mantissa ++ 'e' :: sign :: decimalDigits leading.natAbs

def magnitudeText (style : DecimalStyle) (magnitude : Magnitude) : List Char :=
  if magnitude.isZero then
    if style.wholeFraction then ['0', '.', '0'] else ['0']
  else
    let decimal := magnitude.shortest style.tie
    let digits := significantDigits decimal.coefficient
    let leading := decimal.leadingExponent
    if style.writesPlainly leading then plainText style.wholeFraction digits leading
    else exponentText digits leading

def characters (style : DecimalStyle) : Binary64 → List Char
  | .nan => ['N', 'a', 'N']
  | .number negative magnitude =>
      (if negative then ['-'] else []) ++
        (if magnitude.isInfinite then ['i', 'n', 'f'] else style.magnitudeText magnitude)

/-- A number in the digits that `Shortest` chooses. -/
def write (style : DecimalStyle) (value : Binary64) : String :=
  String.ofList (style.characters value)

end DecimalStyle

/-- A sample value is written with all its digits in place, however many zeros
that takes. -/
def sampleValueStyle : DecimalStyle where
  plainFrom := none
  plainBelow := none
  wholeFraction := false
  tie := .up

example : sampleValueStyle.write (.ofBits 0x3FD3333333333334) = "0.30000000000000004" := by
  decide +kernel

example : sampleValueStyle.write (.ofBits 0xFFF0000000000000) = "-inf" := by
  decide +kernel

end MetricWatch
