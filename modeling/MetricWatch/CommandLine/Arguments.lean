import MetricWatch.CommandLine.Setting
import MetricWatch.Text.ControlSequence

namespace MetricWatch.CommandLine

/-! Reading the arguments of the program, one after the other. -/

/-- What has been given: at most one value for every setting, and whether polling
is to stop at the first error. -/
structure Given where
  value : (setting : Setting) → Option setting.Value
  stopOnError : Bool

namespace Given

def nothing : Given := ⟨fun _ => none, false⟩

def set (given : Given) (setting : Setting) (value : setting.Value) : Given :=
  { given with
    value := fun other =>
      if equal : other = setting then some (equal ▸ value) else given.value other }

theorem value_set_same (given : Given) (setting : Setting) (value : setting.Value) :
    (given.set setting value).value setting = some value := by
  simp [set]

theorem value_set_other (given : Given) (setting : Setting) (value : setting.Value)
    {other : Setting} (different : other ≠ setting) :
    (given.set setting value).value other = given.value other := by
  simp [set, different]

end Given

/-- Why a command line is refused. -/
inductive Fault where
  | unexpected (argument : String)
  | missingValue (setting : Setting)
  | invalidValue (setting : Setting) (text : String) (fault : ValueFault)
  | repeatedSetting (setting : Setting)
  | repeatedStopOnError
  | surplusValue (option : String) (text : String)

def stopOnErrorName : String := "stop-on-error"

/-- Texts of the user are shown in colour: what is left open in one of them ends with
it. -/
def Fault.description : Fault → String
  | .unexpected argument => "unexpected argument '" ++ shownText argument ++ "' found"
  | .missingValue setting =>
      "a value is required for '" ++ setting.shown ++ "' but none was supplied"
  | .invalidValue setting text fault =>
      "invalid value '" ++ shownText text ++ "' for '" ++ setting.shown ++ "': " ++ fault.message
  | .repeatedSetting setting =>
      "the argument '" ++ setting.shown ++ "' cannot be used multiple times"
  | .repeatedStopOnError =>
      "the argument '--" ++ stopOnErrorName ++ "' cannot be used multiple times"
  | .surplusValue option text =>
      "unexpected value '" ++ shownText text ++ "' for '--" ++ option ++
        "' found; no more were expected"

/-- The end of a line is a line feed, with a carriage return in front of it if there
is one. -/
def firstLine (text : List Char) : List Char :=
  match text with
  | [] | '\n' :: _ | '\r' :: '\n' :: _ => []
  | character :: rest => character :: firstLine rest

/-- The first line of the complaint: a text of the user that goes on beyond it is cut. -/
def Fault.message (fault : Fault) : String :=
  String.ofList (firstLine ("error: " ++ fault.description).toList)

/-- Reading ends early when the user asks for help or for the version. -/
inductive Interruption where
  | refused (fault : Fault)
  | help
  | version

/-- The value of a setting may be the next argument. It is only looked at when the
setting after it begins, or at the end. -/
structure Pending where
  setting : Setting
  text : Option String

structure Progress where
  given : Given
  pending : Option Pending
  optionsEnded : Bool

variable [Url.NameMapping]

def Given.assign (given : Given) (setting : Setting) (text : String) : Except Fault Given :=
  if (given.value setting).isSome then .error (.repeatedSetting setting)
  else
    match setting.read text with
    | .ok value => .ok (given.set setting value)
    | .error .missing => .error (.missingValue setting)
    | .error fault => .error (.invalidValue setting text fault)

namespace Progress

def start : Progress := ⟨.nothing, none, false⟩

def resolve (progress : Progress) : Except Fault Given :=
  match progress.pending with
  | none => .ok progress.given
  | some ⟨setting, none⟩ => .error (.missingValue setting)
  | some ⟨setting, some text⟩ => progress.given.assign setting text

def resolved (progress : Progress) : Except Interruption Given :=
  progress.resolve.mapError .refused

/-- A setting with its value attached, or one whose value is still to come. -/
def readSetting (progress : Progress) (setting : Setting) (attached : Option String) :
    Except Interruption Progress := do
  let given ← progress.resolved
  match attached with
  | some text =>
      let assigned ← (given.assign setting text).mapError .refused
      return { progress with given := assigned, pending := none }
  | none => return { progress with given := given, pending := some ⟨setting, none⟩ }

def readStopOnError (progress : Progress) : Except Interruption Progress := do
  let given ← progress.resolved
  if given.stopOnError then .error (.refused .repeatedStopOnError)
  else return { progress with given := { given with stopOnError := true }, pending := none }

def interrupt (progress : Progress) (interruption : Interruption) :
    Except Interruption Progress := do
  let _ ← progress.resolved
  .error interruption

/-! Options with names. What has no value may not have one attached. -/

def withoutValue (option : String) (attached : Option String)
    (otherwise : Except Interruption Progress) : Except Interruption Progress :=
  match attached with
  | some text => .error (.refused (.surplusValue option text))
  | none => otherwise

def readNamed (progress : Progress) (name : String) (attached : Option String) :
    Except Interruption Progress :=
  match Setting.ofName? name with
  | some setting => progress.readSetting setting attached
  | none =>
      if name = stopOnErrorName then withoutValue name attached progress.readStopOnError
      else if name = "help" then withoutValue name attached (progress.interrupt .help)
      else if name = "version" then withoutValue name attached (progress.interrupt .version)
      else .error (.refused (.unexpected ("--" ++ name)))

/-! Options of one letter. What follows the letter of a setting is its value, with
or without an equals sign in front. -/

def attachedToLetter (rest : List Char) : Option String :=
  match rest with
  | [] => none
  | '=' :: text => some (String.ofList text)
  | text => some (String.ofList text)

def readLetter (progress : Progress) (letter : Char) (rest : List Char) :
    Except Interruption Progress :=
  match Setting.ofLetter? letter with
  | some setting => progress.readSetting setting (attachedToLetter rest)
  | none =>
      if letter = 'h' then progress.interrupt .help
      else if letter = 'V' then progress.interrupt .version
      else .error (.refused (.unexpected (String.ofList ['-', letter])))

/-- Everything else is the value that is awaited, or does not belong there. -/
def readPlain (progress : Progress) (argument : String) : Except Interruption Progress :=
  match progress.pending with
  | some ⟨setting, none⟩ => .ok { progress with pending := some ⟨setting, some argument⟩ }
  | _ => .error (.refused (.unexpected argument))

def splitAtEquals (text : List Char) : String × Option String :=
  match text.dropWhile (· != '=') with
  | [] => (String.ofList text, none)
  | _ :: value => (String.ofList (text.takeWhile (· != '=')), some (String.ofList value))

/-- What the next argument adds to what has been read. -/
def step (progress : Progress) (argument : String) : Except Interruption Progress :=
  if progress.optionsEnded then .error (.refused (.unexpected argument))
  else
    match argument.toList with
    | ['-', '-'] => .ok { progress with optionsEnded := true }
    | '-' :: '-' :: named =>
        let (name, attached) := splitAtEquals named
        progress.readNamed name attached
    | '-' :: letter :: rest => progress.readLetter letter rest
    | _ => progress.readPlain argument

end Progress

/-- All settings that the arguments give. -/
def readArguments (arguments : List String) : Except Interruption Given := do
  let progress ← arguments.foldlM Progress.step .start
  progress.resolved

end MetricWatch.CommandLine
