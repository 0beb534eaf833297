import MetricWatch.Clock.RecentWindow
import MetricWatch.Clock.TimeOfDay
import MetricWatch.Query.Request

namespace MetricWatch.Watch

/-! What is printed about the answer to a query: a line for every sample, or that
there is none. Samples from before the last minute are marked as stale. -/

def staleMark : String := " (stale)"

def lineText (zone : Zone) (instant : Instant) (labels : Labels) (value : Binary64)
    (isStale : Bool) : String :=
  instant.timeOfDay zone ++ " \x7b" ++ labels.toText ++ "\x7d " ++
    sampleValueStyle.write value ++ (if isStale then staleMark else "")

/-- The line for what was observed at a moment. It is stale if it is from before the window. -/
def observationLine (zone : Zone) (windowStart instant : Instant) (labels : Labels)
    (value : Binary64) : String :=
  lineText zone instant labels value (instant.isBefore windowStart)

def sampleLine (zone : Zone) (windowStart : Instant) (sample : Sample) : String :=
  observationLine zone windowStart sample.timestamp.toInstant sample.labels sample.value

def noDataLine (timeOfDay : String) : String :=
  timeOfDay ++ " no data"

/-- What is printed about an answer that arrives at a time of day. -/
def lines (zone : Zone) (timeOfDay : String) (windowStart : Instant) :
    Option (List Sample) → List String
  | none => [noDataLine timeOfDay]
  | some samples => samples.map (sampleLine zone windowStart)

def printed (lines : List String) : String :=
  String.join (lines.map (· ++ "\n"))

end MetricWatch.Watch
