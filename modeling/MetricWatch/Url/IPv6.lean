import MetricWatch.Number.Decimal
import MetricWatch.Text.Parts
import MetricWatch.Url.Fault
import MetricWatch.Url.PercentCoding

namespace MetricWatch.Url.IPv6

/-! IPv6 addresses: eight groups of sixteen bits. Two colons stand for a run of
zero groups, and the last two groups may be spelled as an IPv4 address. -/

def groupCount : Nat := 8

def readGroup? (digits : List Char) : Option Nat :=
  if digits.isEmpty || 4 < digits.length then none
  else (digits.mapM hexValue?).map (·.foldl (fun group digit => group * 16 + digit) 0)

/-- A byte in decimal digits, without leading zeros. -/
def readByte? (digits : List Char) : Option Nat :=
  match digits with
  | [] => none
  | first :: rest =>
      let value := digitsValue digits
      if digits.all isAsciiDigit && (first != '0' || rest.isEmpty) && value < 256 then some value
      else none

def readDotted? (text : List Char) : Option (List Nat) :=
  match (partsBetween (· == '.') text).mapM readByte? with
  | some [first, second, third, fourth] => some [first * 256 + second, third * 256 + fourth]
  | _ => none

def readParts? : List (List Char) → Option (List Nat)
  | [] => some []
  | [last] => ((readGroup? last).map fun group => [group]) <|> readDotted? last
  | part :: parts => do
      let group ← readGroup? part
      let groups ← readParts? parts
      return group :: groups

def readGroups? (text : List Char) : Option (List Nat) :=
  if text.isEmpty then some [] else readParts? (partsBetween (· == ':') text)

/-- The text in front of the first two colons in a row, and the text behind them. -/
def splitAtGap? : List Char → Option (List Char × List Char)
  | ':' :: ':' :: rest => some ([], rest)
  | character :: rest =>
      (splitAtGap? rest).map fun sides => (character :: sides.1, sides.2)
  | [] => none

/-- In front of a gap there is no IPv4 address. -/
def readWithGap? (before after : List Char) : Option (List Nat) := do
  let leading ← readGroups? before
  let trailing ← readGroups? after
  if before.contains '.' || groupCount ≤ leading.length + trailing.length then none
  else
    let gap := groupCount - (leading.length + trailing.length)
    return leading ++ List.replicate gap 0 ++ trailing

def read? (text : List Char) : Option (List Nat) :=
  match splitAtGap? text with
  | some (before, after) => readWithGap? before after
  | none => (readGroups? text).filter (·.length == groupCount)

/-- The address that a text between brackets spells. -/
def parse (text : List Char) : Except Fault (List Nat) :=
  match read? text with
  | none => .error .invalidIPv6
  | some groups => .ok groups

/-! Writing leaves out the first of the longest runs of zero groups, if it is
longer than one group. -/

def zeroRun (groups : List Nat) : Nat :=
  (groups.takeWhile (· == 0)).length

def longestZeroRun (groups : List Nat) : Nat :=
  match groups with
  | [] => 0
  | group :: rest => max (zeroRun (group :: rest)) (longestZeroRun rest)

def groupText (group : Nat) : List Char :=
  Nat.toDigits 16 group

def groupsText (groups : List Nat) : List Char :=
  joinParts ':' (groups.map groupText)

def splitAtRun (run : Nat) : List Nat → List Nat × List Nat
  | [] => ([], [])
  | group :: rest =>
      if zeroRun (group :: rest) = run then ([], (group :: rest).drop run)
      else
        let (before, after) := splitAtRun run rest
        (group :: before, after)

/-- Groups in hexadecimal digits, with two colons for those that are left out. -/
def write (groups : List Nat) : List Char :=
  let run := longestZeroRun groups
  if run < 2 then groupsText groups
  else
    let (before, after) := splitAtRun run groups
    groupsText before ++ ':' :: ':' :: groupsText after

example : (read? "2001:DB8:0:0:0:0:0:1".toList).map write = some "2001:db8::1".toList := by
  decide +kernel

example : (read? "::ffff:1.2.3.4".toList).map write = some "::ffff:102:304".toList := by
  decide +kernel

end MetricWatch.Url.IPv6
