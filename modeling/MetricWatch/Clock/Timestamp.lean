namespace MetricWatch

/-! Times counted from the beginning of 1970 in UTC, within the years that the
calendar knows: -262143 to 262142. -/

def earliestSecond : Int := -8334601228800

def latestSecond : Int := 8210266876799

/-- A moment in whole milliseconds. -/
structure Timestamp where
  milliseconds : Int
  notTooEarly : earliestSecond * 1000 ≤ milliseconds
  notTooLate : milliseconds ≤ latestSecond * 1000 + 999
deriving DecidableEq

def Timestamp.ofMilliseconds? (milliseconds : Int) : Option Timestamp :=
  if bounded : earliestSecond * 1000 ≤ milliseconds ∧
      milliseconds ≤ latestSecond * 1000 + 999 then
    some ⟨milliseconds, bounded.1, bounded.2⟩
  else none

theorem Timestamp.ofMilliseconds?_eq_some_iff {milliseconds : Int} {timestamp : Timestamp} :
    ofMilliseconds? milliseconds = some timestamp ↔ milliseconds = timestamp.milliseconds := by
  rw [ofMilliseconds?]
  constructor
  · intro isTimestamp
    split at isTimestamp
    · cases isTimestamp
      rfl
    · cases isTimestamp
  · rintro rfl
    exact dif_pos ⟨timestamp.notTooEarly, timestamp.notTooLate⟩

/-! Milliseconds are counted in 64 bits, which is more than the calendar needs. -/

def lowestCount : Int := -0x8000000000000000

def highestCount : Int := 0x7FFFFFFFFFFFFFFF

/-- A count that does not fit becomes the outermost one that does. -/
def saturated (count : Int) : Int :=
  if count < lowestCount then lowestCount
  else if highestCount < count then highestCount
  else count

theorem Timestamp.ofMilliseconds?_saturated (milliseconds : Int) :
    ofMilliseconds? (saturated milliseconds) = ofMilliseconds? milliseconds := by
  have noneBelow : ofMilliseconds? lowestCount = none := rfl
  have noneAbove : ofMilliseconds? highestCount = none := rfl
  have notFirst : lowestCount < earliestSecond * 1000 := by decide
  have notLast : latestSecond * 1000 + 999 < highestCount := by decide
  rw [saturated]
  split
  · rename_i below
    rw [noneBelow, ofMilliseconds?, dif_neg]
    omega
  · split
    · rename_i above
      rw [noneAbove, ofMilliseconds?, dif_neg]
      omega
    · rfl

end MetricWatch
