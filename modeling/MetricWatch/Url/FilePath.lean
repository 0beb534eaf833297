import MetricWatch.Url.Segments

namespace MetricWatch.Url

/-! Line breaks and tabs in a URL do not count. -/

def isIgnored (character : Char) : Bool :=
  character == '\t' || character == '\n' || character == '\r'

def withoutIgnored (text : List Char) : List Char :=
  text.filter fun character => !isIgnored character

/-! The path of a file may begin with a drive, which is the letter and a colon. -/

def drive? (segment : List Char) : Option (List Char) :=
  match segment with
  | [letter, mark] =>
      if isAsciiLetter letter && isDriveMark mark then some [letter, ':'] else none
  | _ => none

def isDrive (segment : List Char) : Bool :=
  match segment with
  | [letter, mark] => isAsciiLetter letter && mark == ':'
  | _ => false

/-- A drive is also known by a character that does not count right behind its colon.
The text behind it is a segment of its own then, which is not looked at for dots. -/
def splitDrive? (text : List Char) : Option (List Char × List Char) :=
  match text.dropWhile isIgnored with
  | letter :: behindLetter =>
      match behindLetter.dropWhile isIgnored with
      | ':' :: blank :: rest =>
          if isAsciiLetter letter && isIgnored blank && !(withoutIgnored rest).isEmpty then
            some ([letter, ':'], withoutIgnored rest)
          else none
      | _ => none
  | [] => none

/-- The path of a file while it is read. A drive that was a segment of its own as
written leaves no place for a host. -/
structure FilePath where
  reversed : List (List Char)
  excludesHost : Bool

namespace FilePath

def start : FilePath := ⟨[], false⟩

def add (isLast : Bool) (path : FilePath) (text : List Char) : FilePath :=
  let segment := withoutIgnored text
  match path.reversed, drive? segment, splitDrive? text with
  | [], some drive, _ => ⟨[drive], true⟩
  | [], none, some (drive, rest) =>
      { path with reversed := [percentEncode allowedInPath rest, drive] }
  | reversed, _, _ => { path with reversed := addSegment isLast reversed segment }

def read (text : List Char) : FilePath :=
  addSegments add start (partsBetween (separatesSegments .file) text)

/-- The path of a file has no empty segments in front of the others. -/
def segments (path : FilePath) : List (List Char) :=
  let remaining := path.reversed.reverse.dropWhile List.isEmpty
  if remaining.isEmpty then [[]] else remaining

example : (read "C|\\..\\x/../D|".toList).segments = ["C:".toList, "D|".toList] := by
  decide +kernel

example : (read "c:\t../../y".toList).segments = ["c:".toList, "y".toList] := by
  decide +kernel

/-! Paths that are named as seen from another one. They stay on its drive, unless they
begin with a drive themselves. -/

def beginsWithDrive (parts : List (List Char)) : Bool :=
  parts.head?.any fun first => (drive? (withoutIgnored first)).isSome

def goOn (reversed : List (List Char)) (parts : List (List Char)) : FilePath :=
  addSegments add ⟨reversed, false⟩ parts

def readBelowDrive (segments : List (List Char)) (text : List Char) : FilePath :=
  let parts := partsBetween (separatesSegments .file) text
  if beginsWithDrive parts then goOn [] parts
  else goOn ((segments.take 1).filter isDrive) parts

/-- The last segment of the other path is left, but not if it is a drive. Where a drive
has no place, what comes next becomes a part of its name. -/
def readBeside (segments : List (List Char)) (text : List Char) : FilePath :=
  let parts := partsBetween (separatesSegments .file) text
  match segments.getLast?, parts with
  | some last, next :: others =>
      if beginsWithDrive parts then goOn [] parts
      else if !isDrive last then goOn segments.dropLast.reverse parts
      else if segments.length = 1 then goOn [last] parts
      else goOn segments.dropLast.reverse ((last ++ next) :: others)
  | _, _ => goOn [] parts

example : (readBeside ["x".toList, "C:".toList] "y/z".toList).segments =
    ["x".toList, "C:y".toList, "z".toList] := by decide +kernel

end FilePath

end MetricWatch.Url
