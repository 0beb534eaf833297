import MetricWatch.Log
import MetricWatch.Number.Decimal
import MetricWatch.Polling.Registry

namespace MetricWatch.Polling

/-! Lengths of time in whole milliseconds, shown in seconds from one second on. -/

def fractionDigits (milliseconds : Nat) : List Char :=
  let digits := decimalDigits (1000 + milliseconds % 1000)
  (digits.tail.reverse.dropWhile (· == '0')).reverse

/-- A length of time with its unit, without zeros at the end of the fraction. -/
def intervalText (milliseconds : Nat) : String :=
  if milliseconds = 0 then "0ns"
  else if milliseconds < 1000 then decimalText milliseconds ++ "ms"
  else
    let fraction := fractionDigits milliseconds
    decimalText (milliseconds / 1000) ++
      (if fraction.isEmpty then "" else "." ++ String.ofList fraction) ++ "s"

example : [0, 7, 1000, 1500, 100000, 18446744073709551615].map intervalText =
    ["0ns", "7ms", "1s", "1.5s", "100s", "18446744073709551.615s"] := by decide +kernel

/-- What registries and polls write to the log. -/
inductive Notice where
  | registered (handle : Handle) (interval : Nat)
  | cancelled (handle : Handle)
  | retrying (handle : Handle) (interval : Nat) (message : String)
  | stopping (handle : Handle) (message : String)
  | stopped (handle : Handle)
deriving DecidableEq

namespace Notice

def severity : Notice → Severity
  | .registered _ _ | .cancelled _ | .stopped _ => .debug
  | .retrying _ _ _ => .warning
  | .stopping _ _ => .error

def text : Notice → String
  | .registered handle interval =>
      "Registered poll " ++ handle.toText ++ " every " ++ intervalText interval
  | .cancelled handle => "Cancelled poll " ++ handle.toText
  | .retrying handle interval message =>
      "Poll " ++ handle.toText ++ " failed, retrying in " ++ intervalText interval ++ ": " ++
        message
  | .stopping handle message =>
      "Poll " ++ handle.toText ++ " failed, stopping: " ++ message
  | .stopped handle => "Poll " ++ handle.toText ++ " stopped"

def record (notice : Notice) : LogRecord :=
  ⟨notice.severity, "promwatch::schedule", notice.text⟩

end Notice

end MetricWatch.Polling
