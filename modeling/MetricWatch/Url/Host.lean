import MetricWatch.Url.IPv4
import MetricWatch.Url.IPv6

namespace MetricWatch.Url

/-- How the names of hosts are put into ASCII, each name as a whole. Some cannot be. -/
class NameMapping where
  toAscii? : List Char → Option (List Char)

/-- Names that are in ASCII already are put into small letters, and no others are known. -/
instance : NameMapping where
  toAscii? := fun name => if name.all isAscii then some (name.map Char.toLower) else none

/-- Hosts: names, addresses, text that only the scheme can interpret, or nothing. -/
inductive Host where
  | empty
  | name (text : List Char)
  | ipv4 (address : Nat)
  | ipv6 (groups : List Nat)
  | opaqueText (text : List Char)
deriving DecidableEq

namespace Host

/-! Characters that no host contains, and those that no name contains. -/

def isForbidden (character : Char) : Bool :=
  ['\x00', '\t', '\n', '\r', ' ', '#', '/', ':', '<', '>', '?', '@', '[', '\\', ']', '^',
    '|'].contains character

def isForbiddenInName (character : Char) : Bool :=
  isForbidden character || character.toNat < 0x20 || character == '%' || 0x7F ≤ character.toNat

def bracketed? (text : List Char) : Option (Except Fault (List Char)) :=
  match text with
  | '[' :: rest =>
      if rest.getLast? = some ']' then some (.ok rest.dropLast) else some (.error .invalidIPv6)
  | _ => none

def parseAddress (content : Except Fault (List Char)) : Except Fault Host := do
  let groups ← IPv6.parse (← content)
  return .ipv6 groups

/-! Names are decoded and put into ASCII. What looks like an address then is one. -/

section Names

variable [NameMapping]

def decodedName? (text : List Char) : Option (List Char) :=
  (Utf8.glyphs (percentDecode text)).mapM id

def asciiName? (text : List Char) : Option (List Char) :=
  ((decodedName? text).bind NameMapping.toAscii?).filter fun ascii =>
    !ascii.any isForbiddenInName

def parseName (text : List Char) : Except Fault Host :=
  match asciiName? text with
  | none => .error .invalidName
  | some ascii =>
      if ascii.isEmpty then .error .emptyHost
      else if IPv4.endsInNumber ascii then (IPv4.parse ascii).map .ipv4
      else .ok (.name ascii)

/-- The host of a URL whose scheme has rules of its own. -/
def parse (text : List Char) : Except Fault Host :=
  match bracketed? text with
  | some content => parseAddress content
  | none => parseName text

end Names

/-- The host of any other URL. -/
def parseOpaque (text : List Char) : Except Fault Host :=
  match bracketed? text with
  | some content => parseAddress content
  | none =>
      if text.isEmpty then .ok .empty
      else if text.any isForbidden then .error .invalidOpaqueHost
      else .ok (.opaqueText (percentEncode allowedInOpaque text))

def write : Host → List Char
  | .empty => []
  | .name text => text
  | .ipv4 address => IPv4.write address
  | .ipv6 groups => '[' :: (IPv6.write groups ++ [']'])
  | .opaqueText text => text

end Host

end MetricWatch.Url
