import MetricWatch.Number.Decimal

namespace MetricWatch

/-! Whole numbers within bounds, as a user writes them: decimal digits with an
optional sign. The text is read from left to right, and the first thing that is
wrong counts. -/

inductive IntegerFault where
  | empty
  | invalidDigit
  | tooLarge
  | tooSmall
deriving DecidableEq

def IntegerFault.message : IntegerFault → String
  | .empty => "cannot parse integer from empty string"
  | .invalidDigit => "invalid digit found in string"
  | .tooLarge => "number too large to fit in target type"
  | .tooSmall => "number too small to fit in target type"

/-- The digits of a number that may not be larger than a limit. -/
def readLimited (beyond : IntegerFault) (limit : Nat) (value : Nat) :
    List Char → Except IntegerFault Nat
  | [] => .ok value
  | digit :: rest =>
      if isDecimalDigit digit then
        let next := 10 * value + digitValue digit
        if limit < next then .error beyond else readLimited beyond limit next rest
      else .error .invalidDigit

def readMagnitude (beyond : IntegerFault) (limit : Nat) (digits : List Char) :
    Except IntegerFault Nat :=
  if digits.isEmpty then .error .invalidDigit else readLimited beyond limit 0 digits

/-- A number without a sign may still have a plus in front. -/
def readUnsigned (limit : Nat) : List Char → Except IntegerFault Nat
  | [] => .error .empty
  | '+' :: digits => readMagnitude .tooLarge limit digits
  | digits => readMagnitude .tooLarge limit digits

def readSigned (lowest highest : Nat) : List Char → Except IntegerFault Int
  | [] => .error .empty
  | '+' :: digits => (readMagnitude .tooLarge highest digits).map Int.ofNat
  | '-' :: digits => (readMagnitude .tooSmall lowest digits).map fun (size : Nat) => -(size : Int)
  | digits => (readMagnitude .tooLarge highest digits).map Int.ofNat

example : (readUnsigned 255 "+080".toList).toOption = some 80 := by decide +kernel

example : (readSigned 128 127 "-129".toList).toOption = none := by decide +kernel

end MetricWatch
