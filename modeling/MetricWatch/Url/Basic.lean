import MetricWatch.Url.Host

namespace MetricWatch

/-! URLs, taken apart. All texts in them are already percent-encoded as their
place in a URL demands. -/

namespace Url

/-- Whom to ask: the host, its port and the user. -/
structure Authority where
  userName : List Char
  password : List Char
  host : Host
  port : Option Nat
deriving DecidableEq

/-- A path is a list of segments, or text in which no segments are told apart.
Only a path of segments can be the base of a relative URL. -/
inductive Path where
  | opaqueText (text : List Char)
  | segments (segments : List (List Char))
deriving DecidableEq

end Url

/-- A URL. -/
structure Url where
  scheme : List Char
  authority : Option Url.Authority
  path : Url.Path
  query : Option (List Char)
  fragment : Option (List Char)
deriving DecidableEq

namespace Url

/-- Schemes with rules of their own. The special ones always have a host, apart
from files. -/
inductive SchemeKind where
  | file
  | special
  | ordinary
deriving DecidableEq

def schemeKind (scheme : List Char) : SchemeKind :=
  if scheme = "file".toList then .file
  else if ["http", "https", "ws", "wss", "ftp"].any (fun name => scheme = name.toList) then
    .special
  else .ordinary

def defaultPort? (scheme : List Char) : Option Nat :=
  if scheme = "http".toList ∨ scheme = "ws".toList then some 80
  else if scheme = "https".toList ∨ scheme = "wss".toList then some 443
  else if scheme = "ftp".toList then some 21
  else none

def SchemeKind.isSpecial : SchemeKind → Bool
  | .ordinary => false
  | .file | .special => true

/-! URLs as text. -/

def Authority.userInfoText (authority : Authority) : List Char :=
  if authority.userName.isEmpty && authority.password.isEmpty then []
  else if authority.password.isEmpty then authority.userName ++ ['@']
  else authority.userName ++ ':' :: (authority.password ++ ['@'])

def Authority.portText (authority : Authority) : List Char :=
  match authority.port with
  | none => []
  | some port => ':' :: decimalDigits port

def Authority.write (authority : Authority) : List Char :=
  '/' :: '/' :: (authority.userInfoText ++ authority.host.write ++ authority.portText)

def segmentsText (segments : List (List Char)) : List Char :=
  segments.flatMap fun segment => '/' :: segment

/-- Without an authority, a path may not look as if there were one. -/
def looksLikeAuthority : List (List Char) → Bool
  | [] :: _ :: _ => true
  | _ => false

def Path.write (hasAuthority : Bool) : Path → List Char
  | .opaqueText text => text
  | .segments parts =>
      if !hasAuthority && looksLikeAuthority parts then '/' :: '.' :: segmentsText parts
      else segmentsText parts

def introducedText (mark : Char) : Option (List Char) → List Char
  | none => []
  | some text => mark :: text

/-- A URL as text. -/
def write (url : Url) : List Char :=
  url.scheme ++ ':' :: ((url.authority.map Authority.write).getD [] ++
    url.path.write url.authority.isSome ++ introducedText '?' url.query ++
    introducedText '#' url.fragment)

def toText (url : Url) : String :=
  String.ofList url.write

end Url

end MetricWatch
