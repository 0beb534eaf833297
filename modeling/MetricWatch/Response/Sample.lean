import MetricWatch.Clock.Timestamp
import MetricWatch.Labels
import MetricWatch.Response.Envelope
import MetricWatch.Response.Item
import MetricWatch.Response.LabelText

namespace MetricWatch

/-- One observation of a time series. -/
structure Sample where
  labels : Labels
  timestamp : Timestamp
  value : Binary64

namespace Response

/-! Why a response does not give samples. The backend may have refused the query;
otherwise the response is defective, or it is sound but not what was asked for. -/

/-- A sound response that is not what was asked for. -/
inductive Mismatch where
  | noData
  | noResult
  | otherResultType (name : String)
  | infiniteTimestamp (seconds : Binary64)
  | timestampOutOfRange (seconds : Binary64)

/-- Why there are no samples. -/
inductive Failure where
  | refused (message : String)
  | malformed (defect : Defect)
  | unsuitable (mismatch : Mismatch)

def Mismatch.message : Mismatch → String
  | .noData => "missing `data` field"
  | .noResult => "missing `data.result` field"
  | .otherResultType name => "unsupported result type `" ++ name ++ "`, expected `vector`"
  | .infiniteTimestamp seconds =>
      "sample timestamp " ++ sampleValueStyle.write seconds ++ " is not a finite number"
  | .timestampOutOfRange seconds =>
      "sample timestamp " ++ sampleValueStyle.write seconds ++ " is out of range"

def Failure.message : Failure → String
  | .refused message => message
  | .malformed defect => "malformed response body: " ++ defect.message
  | .unsuitable mismatch => "invalid response: " ++ mismatch.message

/-- What an envelope says: the backend's words for why it refused the query, or
the series that match it. -/
inductive Verdict where
  | refused (message : String)
  | series (items : List Item)

namespace Envelope

def refusal (envelope : Envelope) : String :=
  match envelope.error with
  | some (.text message) => message
  | some value => value.toText
  | none => envelope.errorType.getD ("query failed with status " ++ shownQuoted envelope.status)

def isVector : Option String → Except Failure Unit
  | none => .ok ()
  | some name =>
      if name = "vector" then .ok () else .error (.unsuitable (.otherResultType name))

def result (envelope : Envelope) : Except Failure Json.Value := do
  let some data := envelope.data | .error (.unsuitable .noData)
  isVector data.resultType
  let some result := data.result | .error (.unsuitable .noResult)
  return result

def verdict (envelope : Envelope) : Except Failure Verdict := do
  if envelope.status = "success" then
    let result ← envelope.result
    let items ← (Item.listOfValue result).mapError .malformed
    return .series items
  else
    return .refused envelope.refusal

end Envelope

/-- What the body of a response says. -/
def decode (body : List UInt8) : Except Failure Verdict := do
  let envelope ← (Envelope.ofDocument (.ofBytes body)).mapError .malformed
  envelope.verdict

/-- The time of a sample: whole milliseconds, what is beyond them cut off. -/
def timestampOfSeconds (seconds : Binary64) : Except Failure Timestamp :=
  match (seconds.timesNat 1000).truncated? with
  | none => .error (.unsuitable (.infiniteTimestamp seconds))
  | some milliseconds =>
      match Timestamp.ofMilliseconds? (saturated milliseconds) with
      | none => .error (.unsuitable (.timestampOutOfRange seconds))
      | some timestamp => .ok timestamp

theorem timestampOfSeconds_eq_ok_iff {seconds : Binary64} {timestamp : Timestamp} :
    timestampOfSeconds seconds = .ok timestamp ↔
      (seconds.timesNat 1000).truncated? = some timestamp.milliseconds := by
  rw [timestampOfSeconds]
  cases (seconds.timesNat 1000).truncated? with
  | none => exact iff_of_false nofun nofun
  | some milliseconds =>
      simp only [Timestamp.ofMilliseconds?_saturated, Option.some.injEq,
        ← Timestamp.ofMilliseconds?_eq_some_iff]
      cases Timestamp.ofMilliseconds? milliseconds with
      | none => exact iff_of_false nofun nofun
      | some other => simp only [Except.ok.injEq, Option.some.injEq]

def sampleValue : Json.Value → Binary64
  | .text text => readNumericPrefix text.toList
  | .number number => number.toBinary64
  | _ => .nan

def Item.labels (item : Item) : Labels :=
  .ofList (item.metric.map fun entry => (entry.1, labelText entry.2))

def Item.sample (item : Item) : Except Failure Sample := do
  let timestamp ← timestampOfSeconds item.seconds
  return ⟨item.labels, timestamp, sampleValue item.value⟩

/-- The samples of a response, or nothing if no series matches the query. -/
def Verdict.samples? : Verdict → Except Failure (Option (List Sample))
  | .refused message => .error (.refused message)
  | .series [] => .ok none
  | .series items => (items.mapM Item.sample).map some

/-- The samples in the body of a response. -/
def parse (body : List UInt8) : Except Failure (Option (List Sample)) := do
  let verdict ← decode body
  verdict.samples?

end Response

end MetricWatch
