import MetricWatch.Clock.Instant
import MetricWatch.Number.Decimal

namespace MetricWatch

/-! The time of day as a clock shows it in a zone. A zone is at every moment some
seconds to the east of UTC. A leap second is shown as the second after the one
that it prolongs. -/

def secondsPerDay : Int := 86400

/-- The seconds by which a place is to the east of UTC. -/
structure Offset where
  seconds : Int
  lessThanDayWest : -secondsPerDay < seconds
  lessThanDayEast : seconds < secondsPerDay
deriving DecidableEq

namespace Offset

def of? (seconds : Int) : Option Offset :=
  if valid : -secondsPerDay < seconds ∧ seconds < secondsPerDay then
    some ⟨seconds, valid.1, valid.2⟩
  else none

def utc : Offset := ⟨0, by decide, by decide⟩

end Offset

/-- Where a place is to the east of UTC, at every moment. -/
abbrev Zone := Instant → Offset

def utc : Zone := fun _ => .utc

def Instant.secondOfDay (instant : Instant) (zone : Zone) : Nat :=
  ((instant.seconds + (zone instant).seconds) % secondsPerDay).toNat

def twoDigits (value : Nat) : List Char :=
  (decimalDigits (100 + value)).tail

def clockText (hour minute second : Nat) : List Char :=
  twoDigits hour ++ ':' :: (twoDigits minute ++ ':' :: twoDigits second)

/-- Hours, minutes and seconds of the day, each with two digits. -/
def Instant.timeOfDay (instant : Instant) (zone : Zone) : String :=
  let second := instant.secondOfDay zone
  let shown := second % 60 + (if instant.isLeap then 1 else 0)
  String.ofList (clockText (second / 3600) (second / 60 % 60) shown)

example : (Instant.of? 1483228799 1500000000).map (fun instant =>
    instant.timeOfDay fun _ => ⟨3600, by decide, by decide⟩) = some "00:59:60" := by decide +kernel

example : (Instant.of? (-1) 0).map (fun instant => instant.timeOfDay utc) = some "23:59:59" := by
  decide +kernel

end MetricWatch
