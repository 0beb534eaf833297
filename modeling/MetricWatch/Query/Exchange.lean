import MetricWatch.Query.Request

namespace MetricWatch.Query

/-! How a request is put to the host of its URL, in the words of HTTP 1.0, in
which the end of the reply is the end of the connection. -/

namespace Request

def host (request : Request) : Url.Host :=
  (request.url.authority.map (·.host)).getD .empty

/-- A host is looked up without the brackets that are around some addresses. -/
def hostName (request : Request) : String :=
  match request.host with
  | .ipv6 groups => String.ofList (Url.IPv6.write groups)
  | host => String.ofList host.write

def port (request : Request) : Nat :=
  match request.url.authority.bind (·.port) with
  | some port => port
  | none => (Url.defaultPort? request.url.scheme).getD 0

def hostField (request : Request) : List Char :=
  match request.url.authority with
  | none => []
  | some authority => authority.host.write ++ authority.portText

def target (request : Request) : List Char :=
  request.url.path.write true ++ Url.introducedText '?' request.url.query

def lineEnd : List Char := ['\r', '\n']

def head (request : Request) : List Char :=
  "GET ".toList ++ request.target ++ " HTTP/1.0".toList ++ lineEnd ++
    "Host: ".toList ++ request.hostField ++ lineEnd ++
    "Accept: */*".toList ++ lineEnd ++ lineEnd

/-- All that is sent. -/
def bytes (request : Request) : List UInt8 :=
  Utf8.encode request.head

end Request

/-- A reply has a head, of which only the status is kept, and after an empty line
the body. -/
structure Reply where
  status : String
  body : List UInt8
deriving DecidableEq

namespace Reply

def afterHead? : List UInt8 → Option (List UInt8)
  | 13 :: 10 :: 13 :: 10 :: body => some body
  | _ :: rest => afterHead? rest
  | [] => none

def statusText (bytes : List UInt8) : String :=
  let line := bytes.takeWhile (· != 13)
  String.ofList ((Utf8.glyphs ((line.dropWhile (· != 32)).drop 1)).map Utf8.glyphCharacter)

/-- The reply that some bytes spell, unless they break off in its head. -/
def ofBytes? (bytes : List UInt8) : Option Reply :=
  (afterHead? bytes).map fun body => ⟨statusText bytes, body⟩

example : ofBytes? (Utf8.encode "HTTP/1.0 200 OK\r\nA: b\r\n\r\n\r\n{}".toList) =
    some ⟨"200 OK", Utf8.encode "\r\n{}".toList⟩ := by decide +kernel

end Reply

end MetricWatch.Query
