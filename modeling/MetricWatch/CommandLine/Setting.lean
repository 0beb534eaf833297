import MetricWatch.Log
import MetricWatch.Number.BoundedInteger
import MetricWatch.Url.Parse

namespace MetricWatch.CommandLine

/-- What can be set on the command line. Each setting has a value of its own type,
a name, and a variable of the environment that takes its place when it is not
given; most have a letter too. -/
inductive Setting where
  | endpoint
  | port
  | query
  | proxy
  | interval
  | logLevel
  | logFile
deriving DecidableEq

namespace Setting

def all : List Setting :=
  [.endpoint, .port, .query, .proxy, .interval, .logLevel, .logFile]

theorem mem_all (setting : Setting) : setting ∈ all := by
  cases setting <;> simp [all]

/-- The type of the values of a setting. -/
def Value : Setting → Type
  | .endpoint => String
  | .port => UInt16
  | .query => String
  | .proxy => Url
  | .interval => UInt64
  | .logLevel => LogLevel
  | .logFile => String

def name : Setting → String
  | .endpoint => "endpoint"
  | .port => "port"
  | .query => "query"
  | .proxy => "proxy"
  | .interval => "interval"
  | .logLevel => "loglevel"
  | .logFile => "logfile"

def letter? : Setting → Option Char
  | .endpoint => some 'e'
  | .port => some 'p'
  | .query => some 'q'
  | .interval => some 'i'
  | .logLevel => some 'l'
  | .proxy | .logFile => none

def variableName : Setting → String
  | .endpoint => "PROM_ENDPOINT"
  | .port => "PROM_PORT"
  | .query => "PROM_QUERY"
  | .proxy => "PROM_PROXY"
  | .interval => "PROM_POLL_INTERVAL_MS"
  | .logLevel => "LOG_LEVEL"
  | .logFile => "LOG_FILE"

/-- How a setting is shown, with a place for its value. -/
def shown (setting : Setting) : String :=
  "--" ++ setting.name ++ " <" ++ String.ofList (setting.name.toList.map Char.toUpper) ++ ">"

def ofName? (name : String) : Option Setting :=
  all.find? fun setting => setting.name == name

def ofLetter? (letter : Char) : Option Setting :=
  all.find? fun setting => setting.letter? == some letter

end Setting

/-- Why the text of a value is not one. -/
inductive ValueFault where
  | missing
  | integer (fault : IntegerFault)
  | notAPort (value : Int)
  | url (fault : Url.Fault)
  | noLogLevel
deriving DecidableEq

def ValueFault.message : ValueFault → String
  | .missing => "a value is required"
  | .integer fault => fault.message
  | .notAPort value => integerText value ++ " is not in 0..=65535"
  | .url fault => fault.message
  | .noLogLevel =>
      "attempted to convert a string that doesn't match an existing log level"

/-- A port is first read as a number of 64 bits, so that one that is no port can be
shown. -/
def readPortNumber (text : String) : Except ValueFault UInt16 := do
  let limit := UInt64.size / 2
  let value ← (readSigned limit (limit - 1) text.toList).mapError .integer
  if 0 ≤ value ∧ value < UInt16.size then return UInt16.ofNat value.toNat
  else .error (.notAPort value)

def readInterval (text : String) : Except ValueFault UInt64 :=
  match readUnsigned (UInt64.size - 1) text.toList with
  | .ok value => .ok (UInt64.ofNat value)
  | .error fault => .error (.integer fault)

variable [Url.NameMapping]

def readProxy (text : String) : Except ValueFault Url :=
  (Url.parse text.toList).mapError .url

def readLogLevel (text : String) : Except ValueFault LogLevel :=
  match LogLevel.ofName? text with
  | some level => .ok level
  | none => .error .noLogLevel

def readFileName (text : String) : Except ValueFault String :=
  if text.isEmpty then .error .missing else .ok text

/-- The value that a text stands for. -/
def Setting.read : (setting : Setting) → String → Except ValueFault setting.Value
  | .endpoint, text => .ok text
  | .port, text => readPortNumber text
  | .query, text => .ok text
  | .proxy, text => readProxy text
  | .interval, text => readInterval text
  | .logLevel, text => readLogLevel text
  | .logFile, text => readFileName text

end MetricWatch.CommandLine
