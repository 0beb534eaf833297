import MetricWatch.Number.Magnitude

namespace MetricWatch.Magnitude

/-! Scaling by powers of ten in doubles. Every step is rounded on its own, so the
outcome may be a neighbour of the nearest double. -/

/-- The largest power of ten that is not infinite is the last one at hand. -/
def largestPower : Nat := 308

def powerOfTen (exponent : Nat) : Magnitude :=
  ofNat (Nat.pow 10 exponent)

/-- Division by the largest power, a number of times, which ends early at zero. -/
def shrink (size : Magnitude) : Nat → Magnitude
  | 0 => size
  | times + 1 =>
      if size.isZero then size else (size.dividedBy (powerOfTen largestPower)).shrink times

def scaleUp? (size : Magnitude) (exponent : Nat) : Option Magnitude :=
  if exponent ≤ largestPower then
    let product := size.times (powerOfTen exponent)
    if product.isInfinite then none else some product
  else if size.isZero then some size
  else none

/-- Powers beyond the last one are divided by in turns of it. -/
def scaleDown (size : Magnitude) (exponent : Nat) : Magnitude :=
  let turns := (exponent - 1) / largestPower
  (size.shrink turns).dividedBy (powerOfTen (exponent - turns * largestPower))

/-- There is nothing for what would be infinite. -/
def scale? (size : Magnitude) (exponent : Int) : Option Magnitude :=
  if 0 ≤ exponent then size.scaleUp? exponent.toNat
  else some (size.scaleDown (-exponent).toNat)

example : ((ofNat 5).scale? (-324)).map rank = some 1 := by decide +kernel

example : (ofNat 17976931348623158).scale? 292 = none := by decide +kernel

end MetricWatch.Magnitude
