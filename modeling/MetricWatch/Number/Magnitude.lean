import MetricWatch.Number.Rounding

namespace MetricWatch

/-! Magnitudes of double precision numbers, numbered in order of size: rank 0 is
zero, every next rank is the next larger double, and the last rank is infinity.
A rank is the number that the low 63 bits of the interchange format spell. -/

/-- How many steps there are from one power of two to the next. -/
def Magnitude.stepsPerBinade : Nat := 0x10000000000000

def Magnitude.infinityRank : Nat := 2047 * stepsPerBinade

/-- A magnitude is given by its rank. -/
structure Magnitude where
  rank : Nat
  bounded : rank ≤ Magnitude.infinityRank
deriving DecidableEq

namespace Magnitude

def zero : Magnitude := ⟨0, Nat.zero_le _⟩

def infinity : Magnitude := ⟨infinityRank, Nat.le_refl _⟩

instance : Inhabited Magnitude := ⟨zero⟩

def isInfinite (magnitude : Magnitude) : Bool :=
  magnitude.rank == infinityRank

def isZero (magnitude : Magnitude) : Bool :=
  magnitude.rank == 0

/-! Every finite magnitude is a whole number of units of 2^-1074. From one power
of two to the next the step between neighbours doubles: `scale` counts the
doublings and `significand` the steps. -/

def unitsPerOne : Nat := 1 <<< 1074

def scale (magnitude : Magnitude) : Nat :=
  magnitude.rank / stepsPerBinade - 1

def significand (magnitude : Magnitude) : Nat :=
  magnitude.rank - magnitude.scale * stepsPerBinade

def units (magnitude : Magnitude) : Nat :=
  magnitude.significand <<< magnitude.scale

/-- The magnitude nearest to a quotient. The quotient is counted in steps of the
binade it lies in, so that one rounding to a whole number decides, halves going
to the even step. Rounding up past the last step of a binade runs over into the
next rank, and past the largest finite magnitude into infinity. -/
def nearest (numerator denominator : Nat) : Magnitude :=
  let scaled := numerator * unitsPerOne
  let doublings := (scaled / denominator).log2 - 52
  let rank := doublings * stepsPerBinade + nearestQuotient scaled (denominator <<< doublings)
  ⟨min rank infinityRank, Nat.min_le_right _ _⟩

def ofNat (value : Nat) : Magnitude :=
  nearest value 1

example : (ofNat 1).rank = 0x3FF0000000000000 := by decide +kernel

example : ofNat 9007199254740993 = ofNat 9007199254740992 := by decide +kernel

def timesNat (magnitude : Magnitude) (factor : Nat) : Magnitude :=
  nearest (magnitude.units * factor) unitsPerOne

def plus (left right : Magnitude) : Magnitude :=
  nearest (left.units + right.units) unitsPerOne

def divNat (magnitude : Magnitude) (divisor : Nat) : Magnitude :=
  nearest magnitude.units (unitsPerOne * divisor)

def times (left right : Magnitude) : Magnitude :=
  nearest (left.units * right.units) (unitsPerOne * unitsPerOne)

def dividedBy (left right : Magnitude) : Magnitude :=
  nearest left.units right.units

/-- The whole number below a finite magnitude, and whether the magnitude is that
number. -/
def wholePart (magnitude : Magnitude) : Nat :=
  magnitude.units / unitsPerOne

def isWhole (magnitude : Magnitude) : Bool :=
  magnitude.units % unitsPerOne == 0

end Magnitude

end MetricWatch
