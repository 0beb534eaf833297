namespace MetricWatch

/-! How much of what happens is written down. A level lets through itself and the
more urgent ones, which have a lower rank. -/

inductive Severity where
  | error
  | warning
  | info
  | debug
  | trace
deriving DecidableEq

namespace Severity

def rank : Severity → Nat
  | .error => 1
  | .warning => 2
  | .info => 3
  | .debug => 4
  | .trace => 5

def name : Severity → String
  | .error => "ERROR"
  | .warning => "WARN"
  | .info => "INFO"
  | .debug => "DEBUG"
  | .trace => "TRACE"

end Severity

inductive LogLevel where
  | off
  | upTo (severity : Severity)
deriving DecidableEq

namespace LogLevel

def all : List LogLevel :=
  [.off, .upTo .error, .upTo .warning, .upTo .info, .upTo .debug, .upTo .trace]

def name : LogLevel → String
  | .off => "OFF"
  | .upTo severity => severity.name

def admits (level : LogLevel) (severity : Severity) : Bool :=
  match level with
  | .off => false
  | .upTo limit => severity.rank ≤ limit.rank

/-- The name of a level may be spelled in letters of either case. -/
def ofName? (name : String) : Option LogLevel :=
  all.find? fun level => level.name.toList == name.toList.map Char.toUpper

example : all.map (fun level => ofName? level.name) = all.map some := by decide +kernel

end LogLevel

/-- A record of the log: how urgent it is, which part of the program wrote it, and
what happened. -/
structure LogRecord where
  severity : Severity
  target : String
  message : String
deriving DecidableEq

namespace LogRecord

/-- The names of the levels are filled up to the same width. -/
def severityColumn (severity : Severity) : String :=
  severity.name ++ String.ofList (List.replicate (5 - severity.name.length) ' ')

def line (date : String) (record : LogRecord) : String :=
  date ++ " " ++ severityColumn record.severity ++ " " ++ record.target ++ " - " ++
    record.message ++ "\n"

end LogRecord

/-- The content of a log file to which records are written one after the other. -/
def logText (level : LogLevel) (records : List (String × LogRecord)) : String :=
  String.join ((records.filter fun dated => level.admits dated.2.severity).map fun dated =>
    dated.2.line dated.1)

def appenderName : String := "logfile"

example :
    logText (.upTo .warning)
      [("<date>", ⟨.warning, "a", "b"⟩), ("<date>", ⟨.info, "a", "c"⟩)] =
    "<date> WARN  a - b\n" := by decide +kernel

end MetricWatch
