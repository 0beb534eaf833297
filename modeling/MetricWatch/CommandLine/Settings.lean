import MetricWatch.CommandLine.Arguments
import MetricWatch.CommandLine.Endpoint
import MetricWatch.Polling.Registry

namespace MetricWatch.CommandLine

/-- The settings that a run of the program starts with. -/
structure Settings where
  endpoint : String
  port : Option UInt16
  query : String
  proxy : Option Url
  interval : UInt64
  stopOnError : Bool
  logLevel : LogLevel
  logFile : String

namespace Settings

def ofGiven (given : Given) : Settings where
  endpoint := (given.value .endpoint).getD "http://localhost:9090"
  port := given.value .port
  query := (given.value .query).getD "up"
  proxy := given.value .proxy
  interval := (given.value .interval).getD (1000 : UInt64)
  stopOnError := given.stopOnError
  logLevel := (given.value .logLevel).getD (.upTo .info)
  logFile := (given.value .logFile).getD "promwatch.log"

/-- The endpoint with the port that was given apart from it. -/
def origin (settings : Settings) : String :=
  match settings.port with
  | none => settings.endpoint
  | some port => String.ofList (replacePort settings.endpoint.toList port.toNat)

def failurePolicy (settings : Settings) : Polling.FailurePolicy :=
  if settings.stopOnError then .stop else .continue

end Settings

/-! Variables of the environment stand in for settings that were not given, and
only those are looked at. -/

/-- The variables that are set, by name. -/
abbrev Environment := String → Option String

variable [Url.NameMapping]

def Given.complete (environment : Environment) (given : Given) (setting : Setting) :
    Except Interruption Given :=
  if (given.value setting).isSome then .ok given
  else
    match environment setting.variableName with
    | none => .ok given
    | some text => (given.assign setting text).mapError .refused

/-- What is given on the command line counts more than what is in the environment. -/
def Settings.read (environment : Environment) (arguments : List String) :
    Except Interruption Settings := do
  let given ← readArguments arguments
  let completed ← Setting.all.foldlM (Given.complete environment) given
  return .ofGiven completed

/-! How the program ends that does not get beyond the command line: what it was
asked for goes to the standard output, a complaint to the standard error. -/

def usageLine : String := "Usage: promwatch [OPTIONS]"

def versionLine : String := "promwatch 0.1.0"

namespace Interruption

def reply? : Interruption → Option String
  | .help => some usageLine
  | .version => some versionLine
  | .refused _ => none

def complaint? : Interruption → Option String
  | .refused fault => some fault.message
  | .help | .version => none

/-- A refused command line is an error of the user; help and version are none. -/
def exitCode : Interruption → Nat
  | .help | .version => 0
  | .refused _ => 2

end Interruption

/-- How it ends when it cannot begin for another reason. -/
def failureCode : Nat := 1

end MetricWatch.CommandLine
