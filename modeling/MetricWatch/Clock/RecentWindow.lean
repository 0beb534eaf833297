import MetricWatch.Clock.Instant

namespace MetricWatch

/-! The last minute before a moment. Counting back from within a leap second begins
at its end. -/

def windowSeconds : Int := 60

structure RecentWindow where
  start : Instant
  finish : Instant
deriving DecidableEq

inductive ClockFault where
  | beforeCalendar
deriving DecidableEq

def ClockFault.message : ClockFault → String
  | .beforeCalendar => "`DateTime - TimeDelta` overflowed"

def Instant.minuteBefore? (instant : Instant) : Option Instant :=
  if instant.isLeap then
    Instant.of? (instant.seconds + 1 - windowSeconds) (instant.nanoseconds - nanosecondsPerSecond)
  else Instant.of? (instant.seconds - windowSeconds) instant.nanoseconds

/-- There is no window where it would begin before the calendar does. -/
def recentWindow (now : Instant) : Except ClockFault RecentWindow :=
  match now.minuteBefore? with
  | none => .error .beforeCalendar
  | some start => .ok ⟨start, now⟩

/-- The time between two moments that are no leap seconds, in milliseconds. -/
def RecentWindow.milliseconds (window : RecentWindow) : Int :=
  (window.finish.seconds - window.start.seconds) * 1000 +
    ((window.finish.nanoseconds : Int) - window.start.nanoseconds) / 1000000

end MetricWatch
