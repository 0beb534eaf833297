import MetricWatch.Url.FilePath

namespace MetricWatch.Url

/-! Reading URLs. Blanks and controls around a URL do not count. -/

def isEdgeBlank (character : Char) : Bool :=
  character.toNat ≤ 0x20

def trimEdges (text : List Char) : List Char :=
  ((text.dropWhile isEdgeBlank).reverse.dropWhile isEdgeBlank).reverse

/-! The scheme, and what is behind its colon. -/

def isSchemeCharacter (character : Char) : Bool :=
  isAsciiAlphanumeric character || ['+', '-', '.'].contains character

def isScheme (text : List Char) : Bool :=
  text.head?.any isAsciiLetter && text.all isSchemeCharacter

def splitScheme? (text : List Char) : Option (List Char × List Char) :=
  match text.dropWhile (· != ':') with
  | [] => none
  | _ :: rest =>
      let scheme := withoutIgnored (text.takeWhile (· != ':'))
      if isScheme scheme then some (lowerCase scheme, rest) else none

/-! The query and the fragment follow the rest of a URL, which is kept as it is
written. -/

structure Tailed where
  front : List Char
  query : Option (List Char)
  fragment : Option (List Char)

def splitAtMark (mark : Char) (text : List Char) : List Char × Option (List Char) :=
  match text.dropWhile (· != mark) with
  | [] => (text, none)
  | _ :: rest => (text.takeWhile (· != mark), some rest)

def splitTail (text : List Char) : Tailed :=
  let (beforeFragment, fragment) := splitAtMark '#' text
  let (front, query) := splitAtMark '?' beforeFragment
  ⟨front, query.map withoutIgnored, fragment.map withoutIgnored⟩

def encodeQuery (kind : SchemeKind) (query : List Char) : List Char :=
  percentEncode (if kind.isSpecial then allowedInSpecialQuery else allowedInQuery) query

def encodeFragment (fragment : List Char) : List Char :=
  percentEncode allowedInFragment fragment

def assemble (scheme : List Char) (authority : Option Authority) (path : Path)
    (tailed : Tailed) : Url where
  scheme := scheme
  authority := authority
  path := path
  query := tailed.query.map (encodeQuery (schemeKind scheme))
  fragment := tailed.fragment.map encodeFragment

/-! The authority: what is in front of the last `@` is about the user, and what is
behind it names the host and the port. -/

def splitUserInfo (text : List Char) : Option (List Char) × List Char :=
  if text.contains '@' then
    let host := (text.reverse.takeWhile (· != '@')).reverse
    (some (text.take (text.length - host.length - 1)), host)
  else (none, text)

def readUserInfo (userInfo : List Char) : List Char × List Char :=
  let (userName, password) := splitAtMark ':' userInfo
  (percentEncode allowedInUserInfo userName, percentEncode allowedInUserInfo (password.getD []))

/-- The host ends at the first colon outside brackets. -/
def splitHost (inBrackets : Bool) : List Char → List Char × List Char
  | [] => ([], [])
  | character :: rest =>
      if character = ':' ∧ !inBrackets then ([], character :: rest)
      else
        let inside := if character = '[' then true else if character = ']' then false
          else inBrackets
        let (host, remaining) := splitHost inside rest
        (character :: host, remaining)

section Names

variable [NameMapping]

def readHost (kind : SchemeKind) (text : List Char) : Except Fault Host :=
  if kind.isSpecial then
    if text.isEmpty then .error .emptyHost else Host.parse text
  else Host.parseOpaque text

/-- A port is written in digits. In a URL without rules of its own a backslash may
follow, which already belongs to the path. -/
def readPort (scheme digits : List Char) : Except Fault (Option Nat) :=
  let port := digitsValue digits
  if 0xFFFF < port then .error .invalidPort
  else if digits.isEmpty || defaultPort? scheme = some port then .ok none
  else .ok (some port)

def splitPort (scheme : List Char) (text : List Char) :
    Except Fault (Option Nat × List Char) :=
  match text with
  | ':' :: rest =>
      let digits := rest.takeWhile isAsciiDigit
      let remaining := rest.dropWhile isAsciiDigit
      match remaining with
      | [] | '\\' :: _ => (readPort scheme digits).map fun port => (port, remaining)
      | _ => .error .invalidPort
  | remaining => .ok (none, remaining)

structure AuthorityRead where
  authority : Authority
  remaining : List Char

def readHostAndPort (scheme : List Char) (user : List Char × List Char) (text : List Char) :
    Except Fault AuthorityRead := do
  let (hostText, portText) := splitHost false text
  let host ← readHost (schemeKind scheme) hostText
  if host = .empty ∧ !portText.isEmpty then .error .emptyHost
  let (port, remaining) ← splitPort scheme portText
  let authority : Authority := ⟨user.1, user.2, host, port⟩
  if host = .empty ∧ !authority.userInfoText.isEmpty then .error .emptyHost
  return ⟨authority, remaining⟩

def readAuthority (scheme : List Char) (text : List Char) (isLast : Bool) :
    Except Fault AuthorityRead :=
  match splitUserInfo text with
  | (some [], []) =>
      if isLast then readHostAndPort scheme ([], []) [] else .error .emptyHost
  | (some userInfo, host) => readHostAndPort scheme (readUserInfo userInfo) host
  | (none, host) => readHostAndPort scheme ([], []) host

/-! Paths. A special URL has at least one segment. -/

def withoutSlash (kind : SchemeKind) (text : List Char) : List Char :=
  match text with
  | [] => []
  | first :: rest => if separatesSegments kind first then rest else text

def readPath (kind : SchemeKind) (text : List Char) : List (List Char) :=
  if text.isEmpty ∧ !kind.isSpecial then [] else readSegments kind (withoutSlash kind text)

def afterSlashes (scheme : List Char) (tailed : Tailed) (text : List Char) :
    Except Fault Url := do
  let kind := schemeKind scheme
  let endsAuthority := separatesSegments kind
  let authorityText := text.takeWhile fun character => !endsAuthority character
  let pathText := text.dropWhile fun character => !endsAuthority character
  let isLast := pathText.isEmpty && tailed.query.isNone && tailed.fragment.isNone
  let ⟨authority, remaining⟩ ← readAuthority scheme authorityText isLast
  return assemble scheme (some authority) (.segments (readPath kind (remaining ++ pathText)))
    tailed

/-! A file is on this machine if its host is missing or called `localhost`. Where
a drive stands in place of the host, or at the beginning of the path, there is no
host either. -/

def localAuthority : Authority := ⟨[], [], .empty, none⟩

def readFileHost (text : List Char) : Except Fault Host := do
  if text.isEmpty then return .empty
  let host ← Host.parse text
  if host = .name "localhost".toList then return .empty else return host

def fileUrl (host : Host) (path : FilePath) (tailed : Tailed) : Url :=
  let authority := if path.excludesHost then localAuthority else ⟨[], [], host, none⟩
  assemble "file".toList (some authority) (.segments path.segments) tailed

def isSlash (character : Char) : Bool :=
  character == '/' || character == '\\'

def behindSlash? (text : List Char) : Option (List Char) :=
  match text.dropWhile isIgnored with
  | first :: rest => if isSlash first then some rest else none
  | [] => none

/-- Without a host, the slash behind its place ends an empty segment. -/
def readFilePath (host : Host) (text : List Char) : FilePath :=
  match host with
  | .empty => .read text
  | _ => .read ((behindSlash? text).getD text)

def readFileAuthority (text : List Char) (tailed : Tailed) : Except Fault Url := do
  let hostText := withoutIgnored (text.takeWhile fun character => !isSlash character)
  let pathText := text.dropWhile fun character => !isSlash character
  if (drive? hostText).isSome then return fileUrl .empty (.read text) tailed
  let host ← readFileHost hostText
  return fileUrl host (readFilePath host pathText) tailed

def readFile (tailed : Tailed) : Except Fault Url :=
  match behindSlash? tailed.front with
  | none => .ok (fileUrl .empty (.read tailed.front) tailed)
  | some behindFirst =>
      match behindSlash? behindFirst with
      | none => .ok (fileUrl .empty (.read behindFirst) tailed)
      | some behindSecond => readFileAuthority behindSecond tailed

/-! Schemes without rules of their own. -/

def readOrdinary (scheme : List Char) (tailed : Tailed) : Except Fault Url :=
  match withoutIgnored tailed.front with
  | '/' :: '/' :: rest => afterSlashes scheme tailed rest
  | '/' :: rest => .ok (assemble scheme none (.segments (readPath .ordinary ('/' :: rest))) tailed)
  | text => .ok (assemble scheme none (.opaqueText (percentEncode allowedInOpaque text)) tailed)

def readSpecial (scheme : List Char) (tailed : Tailed) : Except Fault Url :=
  afterSlashes scheme tailed ((withoutIgnored tailed.front).dropWhile isSlash)

/-- The URL that a text spells on its own, without a base. -/
def parse (text : List Char) : Except Fault Url :=
  match splitScheme? (trimEdges text) with
  | none => .error .relativeWithoutBase
  | some (scheme, rest) =>
      let tailed := splitTail rest
      match schemeKind scheme with
      | .file => readFile tailed
      | .special => readSpecial scheme tailed
      | .ordinary => readOrdinary scheme tailed

end Names

example : ((parse " HTTP://u:@Prom:80/a/../b c?x='y'#z".toList).toOption).map toText =
    some "http://u@prom/b%20c?x=%27y%27#z" := by decide +kernel

end MetricWatch.Url
