import MetricWatch.Number.Decimal
import MetricWatch.Text.Parts
import MetricWatch.Url.Fault
import MetricWatch.Url.PercentCoding

namespace MetricWatch.Url.IPv4

/-! IPv4 addresses. An address has up to four numbers, in decimal, octal or
hexadecimal digits; the last number fills all bytes that are left. -/

inductive Numeral where
  | notNumeric
  | value (number : Nat)

def digitOf? (base : Nat) (character : Char) : Option Nat :=
  (hexValue? character).filter (· < base)

def readDigits (base : Nat) (digits : List Char) : Numeral :=
  match digits.mapM (digitOf? base) with
  | none => .notNumeric
  | some values => .value (values.foldl (fun number digit => number * base + digit) 0)

def Numeral.read : List Char → Numeral
  | [] => .notNumeric
  | '0' :: 'x' :: digits | '0' :: 'X' :: digits => readDigits 16 digits
  | '0' :: first :: digits => readDigits 8 (first :: digits)
  | digits => readDigits 10 digits

/-! A name that ends in a number is meant as an address. A dot behind it does not
count. -/

def numberParts (name : List Char) : List (List Char) :=
  let parts := partsBetween (· == '.') name
  if 1 < parts.length ∧ parts.getLast? = some [] then parts.dropLast else parts

def isNumeric (part : List Char) : Bool :=
  match Numeral.read part with
  | .notNumeric => !part.isEmpty && part.all isAsciiDigit
  | .value _ => true

def endsInNumber (name : List Char) : Bool :=
  match (numberParts name).getLast? with
  | none => false
  | some last => isNumeric last

def readNumbers (parts : List (List Char)) : Option (List Nat) :=
  parts.mapM fun part =>
    match Numeral.read part with
    | .notNumeric => none
    | .value number => some number

def placeBytes (bytes : List Nat) : Nat :=
  bytes.zipIdx.foldr (fun (byte, position) address =>
    (byte <<< (8 * (3 - position))) + address) 0

/-- The address that a name spells which ends in a number. -/
def parse (name : List Char) : Except Fault Nat :=
  match readNumbers (numberParts name) with
  | none => .error .invalidIPv4
  | some numbers =>
      let bytes := numbers.dropLast
      let last := numbers.getLastD 0
      if bytes.length ≤ 3 ∧ bytes.all (· < 256) ∧ last < 1 <<< (8 * (4 - bytes.length)) then
        .ok (placeBytes bytes + last)
      else .error .invalidIPv4

def write (address : Nat) : List Char :=
  joinParts '.' (([3, 2, 1, 0].map fun position =>
    decimalDigits ((address >>> (8 * position)) % 256)))

example : (parse "0x7f.1".toList).toOption.map write = some "127.0.0.1".toList := by
  decide +kernel

example : (parse "256.1.1.1".toList).toOption = none := by decide +kernel

end MetricWatch.Url.IPv4
