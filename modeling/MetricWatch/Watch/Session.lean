import MetricWatch.CommandLine.Settings
import MetricWatch.Polling.World
import MetricWatch.Watch.Report

namespace MetricWatch.Watch

/-! A session of the program: one poll asks the query of the settings again and
again until the user interrupts it. -/

def sessionRecord (message : String) : LogRecord :=
  ⟨.info, "promwatch", message⟩

def proxyMessage (proxy : Url) : String :=
  "Sending queries through proxy: " ++ proxy.toText

def openingMessages (settings : CommandLine.Settings) : List String :=
  ["Starting the application!",
    "Querying metrics from endpoint: " ++ settings.origin,
    "Polling interval is: " ++ decimalText settings.interval.toNat ++ "ms"] ++
    (settings.proxy.map proxyMessage).toList

/-- What is written down when a session begins. -/
def openingRecords (settings : CommandLine.Settings) : List LogRecord :=
  (openingMessages settings).map sessionRecord

/-- What is written down when it ends. -/
def interruptedRecord (handle : Polling.Handle) : LogRecord :=
  sessionRecord ("Interrupted, stopping poll " ++ handle.toText)

/-! Every query goes through the proxy, if there is one. -/

def question (settings : CommandLine.Settings) : Query.Question :=
  ⟨settings.origin, settings.query⟩

variable [Url.NameMapping]

def outcome : Except Query.Failure Content → Polling.Outcome
  | .ok _ => .succeeded
  | .error failure => .failed (some failure.message)

/-- One invocation of the poll. -/
def call (network : Query.Request → Option (List UInt8)) (settings : CommandLine.Settings) :
    Polling.Call where
  duration := 0
  operations := []
  outcome := outcome
    (Query.run network settings.proxy (question settings) settings.proxy.isSome)

def plan (network : Query.Request → Option (List UInt8)) (settings : CommandLine.Settings) :
    Polling.Plan where
  interval := settings.interval.toNat
  call := fun _ => call network settings

/-! The log of a session that is interrupted after some milliseconds, over a
network that answers at once. -/

def eventRecord? : Polling.Event → Option LogRecord
  | .noticed notice => some notice.record
  | _ => none

def pollRecords (network : Query.Request → Option (List UInt8))
    (settings : CommandLine.Settings) (duration : Nat) : List LogRecord :=
  let world := (Polling.World.start [settings.failurePolicy]).run
    [.register 0 (plan network settings) true, .advance duration]
  world.journal.reverse.filterMap fun entry => eventRecord? entry.event

/-- The records of a session in order, whatever their level. -/
def sessionRecords (network : Query.Request → Option (List UInt8))
    (settings : CommandLine.Settings) (duration : Nat) : List LogRecord :=
  openingRecords settings ++ pollRecords network settings duration ++ [interruptedRecord ⟨0⟩]

end MetricWatch.Watch
