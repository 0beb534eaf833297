import MetricWatch.Number.Decimal

namespace MetricWatch

/-! The shortest decimal that reads back as a given magnitude. Decimals with the
same exponent form a grid; if any point of a grid reads back, one of the two
points around the magnitude does. So the grids of 1, 2, ... 17 digits are tried
in turn, and on the first that has such a point the nearer one is taken. -/

inductive TieRule where
  | toEven
  | up
deriving DecidableEq

namespace Magnitude

/-! The power of ten of the first digit. Every positive magnitude is well above
10^-400, so the multiple taken here is never zero. -/

def leadingExponent (magnitude : Magnitude) : Int :=
  ((decimalDigits (magnitude.units * Nat.pow 10 400 / unitsPerOne)).length : Int) - 1 - 400

/-- A magnitude as a quotient counted in steps of a grid. -/
def gridNumerator (magnitude : Magnitude) (exponent : Int) : Nat :=
  magnitude.units * Nat.pow 10 (-exponent).toNat

def gridDenominator (exponent : Int) : Nat :=
  unitsPerOne * Nat.pow 10 exponent.toNat

def onGrid? (magnitude : Magnitude) (tie : TieRule) (exponent : Int) : Option Decimal :=
  let numerator := magnitude.gridNumerator exponent
  let denominator := gridDenominator exponent
  let lower : Decimal := ⟨numerator / denominator, exponent⟩
  let upper : Decimal := ⟨numerator / denominator + 1, exponent⟩
  let doubledRemainder := 2 * (numerator % denominator)
  if lower.magnitude = magnitude then
    if upper.magnitude = magnitude then
      if doubledRemainder < denominator then some lower
      else if denominator < doubledRemainder then some upper
      else
        match tie with
        | .up => some upper
        | .toEven => if lower.coefficient % 2 = 0 then some lower else some upper
    else some lower
  else if upper.magnitude = magnitude then some upper
  else none

/-- All digits of a magnitude: a unit is 5^1074 on the grid of 10^-1074. -/
def exactDecimal (magnitude : Magnitude) : Decimal :=
  ⟨magnitude.units * Nat.pow 5 1074, -1074⟩

/-- The decimal with the fewest digits that reads back, and of those the nearest one. -/
def shortest (magnitude : Magnitude) (tie : TieRule) : Decimal :=
  let leading := magnitude.leadingExponent
  let found := (List.range 17).findSome? fun (extraDigits : Nat) =>
    magnitude.onGrid? tie (leading - extraDigits)
  found.getD magnitude.exactDecimal

theorem magnitude_of_onGrid? {magnitude : Magnitude} {tie : TieRule} {exponent : Int}
    {decimal : Decimal} (found : magnitude.onGrid? tie exponent = some decimal) :
    decimal.magnitude = magnitude := by
  simp only [onGrid?] at found
  repeat' split at found
  all_goals simp_all

end Magnitude

end MetricWatch
