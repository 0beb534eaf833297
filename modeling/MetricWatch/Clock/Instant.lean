import MetricWatch.Clock.Timestamp

namespace MetricWatch

/-! Moments of time: whole seconds since the beginning of 1970 in UTC and the
nanoseconds after them. During a leap second, which only comes at the end of a
minute, the nanoseconds go on beyond the second. -/

def nanosecondsPerSecond : Nat := 1000000000

/-- A moment in nanoseconds, leap seconds included. -/
structure Instant where
  seconds : Int
  nanoseconds : Nat
  notTooEarly : earliestSecond ≤ seconds
  notTooLate : seconds ≤ latestSecond
  bounded : nanoseconds < 2 * nanosecondsPerSecond
  leapAtMinuteEnd : nanosecondsPerSecond ≤ nanoseconds → seconds % 60 = 59
deriving DecidableEq

namespace Instant

def of? (seconds : Int) (nanoseconds : Nat) : Option Instant :=
  if valid : (earliestSecond ≤ seconds ∧ seconds ≤ latestSecond) ∧
      nanoseconds < 2 * nanosecondsPerSecond ∧
        (nanosecondsPerSecond ≤ nanoseconds → seconds % 60 = 59) then
    some ⟨seconds, nanoseconds, valid.1.1, valid.1.2, valid.2.1, valid.2.2⟩
  else none

def isLeap (instant : Instant) : Bool :=
  nanosecondsPerSecond ≤ instant.nanoseconds

end Instant

def Timestamp.toInstant (timestamp : Timestamp) : Instant where
  seconds := timestamp.milliseconds / 1000
  nanoseconds := (timestamp.milliseconds % 1000).toNat * 1000000
  notTooEarly := by
    have early := timestamp.notTooEarly
    omega
  notTooLate := by
    have late := timestamp.notTooLate
    omega
  bounded := by
    simp only [nanosecondsPerSecond]
    omega
  leapAtMinuteEnd := by
    simp only [nanosecondsPerSecond]
    omega

/-- The order of moments. A leap second lies between its neighbours. -/
def Instant.isBefore (left right : Instant) : Bool :=
  left.seconds < right.seconds ||
    (left.seconds == right.seconds && left.nanoseconds < right.nanoseconds)

end MetricWatch
