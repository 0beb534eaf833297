import MetricWatch.Text.Parts
import MetricWatch.Url.Basic

namespace MetricWatch.Url

/-! The segments of a path as it is written. A single dot stands for the place
where it is, and two dots lead one segment back. -/

def lowerCase (text : List Char) : List Char :=
  text.map Char.toLower

def isSingleDot (segment : List Char) : Bool :=
  [".", "%2e"].any fun spelling => lowerCase segment = spelling.toList

def isDoubleDot (segment : List Char) : Bool :=
  ["..", ".%2e", "%2e.", "%2e%2e"].any fun spelling => lowerCase segment = spelling.toList

/-- Drives are written with a bar, too. -/
def isDriveMark (character : Char) : Bool :=
  character == ':' || character == '|'

/-- Two dots do not lead out of a drive. Whatever looks like one is taken for it,
anywhere in a path and in URLs that name no files as well. -/
def looksLikeDrive (segment : List Char) : Bool :=
  match segment with
  | letter :: mark :: rest =>
      isAsciiLetter letter && isDriveMark mark && rest.head?.all (· == '\\')
  | _ => false

def shorten (reversed : List (List Char)) : List (List Char) :=
  match reversed with
  | [] => []
  | last :: rest => if looksLikeDrive last then last :: rest else rest

def addSegment (isLast : Bool) (reversed : List (List Char)) (segment : List Char) :
    List (List Char) :=
  if isDoubleDot segment then
    if isLast then [] :: shorten reversed else shorten reversed
  else if isSingleDot segment then
    if isLast then [] :: reversed else reversed
  else percentEncode allowedInPath segment :: reversed

/-- The segments are added one after the other: it matters which of them is last. -/
def addSegments {α : Type} (add : Bool → α → List Char → α) (path : α) : List (List Char) → α
  | [] => path
  | [last] => add true path last
  | segment :: segments => addSegments add (add false path segment) segments

def separatesSegments (kind : SchemeKind) (character : Char) : Bool :=
  character == '/' || (kind.isSpecial && character == '\\')

/-- The segments of a path as written, with the dots resolved. -/
def readSegments (kind : SchemeKind) (text : List Char) : List (List Char) :=
  (addSegments addSegment [] (partsBetween (separatesSegments kind) text)).reverse

example : readSegments .special "a/./b\\.%2e/%2E./c/.".toList = ["c".toList, []] := by
  decide +kernel

example : readSegments .ordinary "a/C:/..//x".toList =
    ["a".toList, "C:".toList, [], "x".toList] := by
  decide +kernel

end MetricWatch.Url
