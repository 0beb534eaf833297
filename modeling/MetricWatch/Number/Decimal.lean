import MetricWatch.Number.Binary64

namespace MetricWatch

/-- Decimal numbers as written: a whole coefficient and a power of ten. -/
structure Decimal where
  coefficient : Nat
  exponent : Int
deriving DecidableEq

/-! Digits of a whole number, and the whole number that digits spell. -/

def decimalDigits (value : Nat) : List Char :=
  Nat.toDigits 10 value

def decimalText (value : Nat) : String :=
  String.ofList (decimalDigits value)

def integerText (value : Int) : String :=
  if value < 0 then "-" ++ decimalText value.natAbs else decimalText value.natAbs

def isDecimalDigit (character : Char) : Bool :=
  '0' ≤ character && character ≤ '9'

def digitValue (character : Char) : Nat :=
  character.toNat - '0'.toNat

def digitsValue (digits : List Char) : Nat :=
  digits.foldl (fun value digit => 10 * value + digitValue digit) 0

namespace Decimal

/-- The power of ten of the first digit. -/
def leadingExponent (decimal : Decimal) : Int :=
  decimal.exponent + ((decimalDigits decimal.coefficient).length - 1 : Int)

/-- The magnitude nearest to a decimal. The largest finite magnitude is below
10^309 and half of the smallest positive one above 10^-325, so decimals that lie
well beyond them are decided by their first digit alone. -/
def magnitude (decimal : Decimal) : Magnitude :=
  if decimal.coefficient = 0 then .zero
  else if 310 < decimal.leadingExponent then .infinity
  else if decimal.leadingExponent < -330 then .zero
  else if 0 ≤ decimal.exponent then
    .nearest (decimal.coefficient * Nat.pow 10 decimal.exponent.toNat) 1
  else
    .nearest decimal.coefficient (Nat.pow 10 (-decimal.exponent).toNat)

example : (Decimal.mk 1 (-1)).magnitude.rank = 0x3FB999999999999A := by decide +kernel

example : (Decimal.mk 18 307).magnitude = .infinity := by decide +kernel

end Decimal

end MetricWatch
