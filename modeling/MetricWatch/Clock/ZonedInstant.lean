import MetricWatch.Clock.TimeOfDay

namespace MetricWatch

/-! Moments that know the zone they were noted in, and the time of day that they have in a
zone at a fixed distance from UTC. The distance is less than a day, so the local day is the
one of UTC or one beside it. A moment at either end of the calendar can have a local day
that the calendar does not know, and still has a time of day. -/

/-- A moment with its zone. A leap second may be noted at any second here: a distance from
UTC that is no whole number of minutes shows it inside a minute. -/
structure ZonedInstant where
  seconds : Int
  nanoseconds : Nat
  offset : Offset
  notTooEarly : earliestSecond ≤ seconds
  notTooLate : seconds ≤ latestSecond
  bounded : nanoseconds < 2 * nanosecondsPerSecond

def Instant.noted (instant : Instant) (offset : Offset) : ZonedInstant where
  seconds := instant.seconds
  nanoseconds := instant.nanoseconds
  offset := offset
  notTooEarly := instant.notTooEarly
  notTooLate := instant.notTooLate
  bounded := instant.bounded

def earliestDay : Int := earliestSecond / secondsPerDay

def latestDay : Int := latestSecond / secondsPerDay

/-- A day counted from the beginning of 1970, where the calendar knows it. -/
inductive LocalDay where
  | beforeCalendar
  | counted (day : Int)
  | afterCalendar
deriving DecidableEq

def LocalDay.ofCount (day : Int) : LocalDay :=
  if day < earliestDay then .beforeCalendar
  else if latestDay < day then .afterCalendar
  else .counted day

/-- What calendar and clock show in a zone. A leap second keeps its nanoseconds. -/
structure LocalTime where
  day : LocalDay
  secondOfDay : Nat
  nanoseconds : Nat
  inDay : (secondOfDay : Int) < secondsPerDay
  bounded : nanoseconds < 2 * nanosecondsPerSecond

/-- Hours, minutes and seconds, each with two digits. -/
def LocalTime.clock (time : LocalTime) : String :=
  String.ofList (clockText (time.secondOfDay / 3600) (time.secondOfDay / 60 % 60)
    (time.secondOfDay % 60 + time.nanoseconds / nanosecondsPerSecond))

namespace ZonedInstant

/-- The same moment, noted in another zone. -/
def inZone (instant : ZonedInstant) (offset : Offset) : ZonedInstant :=
  { instant with offset }

/-- The offset is added to the time of day in UTC, and what goes beyond midnight is carried
over to the day. -/
def localTime (instant : ZonedInstant) : LocalTime :=
  let second := instant.seconds % secondsPerDay + instant.offset.seconds
  { day := .ofCount (instant.seconds / secondsPerDay + second / secondsPerDay)
    secondOfDay := (second % secondsPerDay).toNat
    nanoseconds := instant.nanoseconds
    inDay := by
      have positive : 0 < secondsPerDay := by decide
      have notNegative := second.emod_nonneg (Int.ne_of_gt positive)
      rw [Int.toNat_of_nonneg notNegative]
      exact second.emod_lt_of_pos positive
    bounded := instant.bounded }

/-- The time of day in a zone, whatever zone the moment was noted in. -/
def timeOfDayIn (instant : ZonedInstant) (offset : Offset) : String :=
  (instant.inZone offset).localTime.clock

end ZonedInstant

end MetricWatch
