import MetricWatch.Number.Decimal
import MetricWatch.Text.WordCharacter

namespace MetricWatch.CommandLine

/-! The port of an endpoint can be given apart from it. An endpoint is a word, the
mark `://`, and a host up to the next slash or colon; of the digits behind that
colon up to five are taken for its port. What does not look like an endpoint stays
as it is. -/

/-- An endpoint whose host is told apart from what follows it. -/
structure EndpointParts where
  word : List Char
  host : List Char
  rest : List Char
deriving DecidableEq

def schemeMark : List Char := "://".toList

def endsHost (character : Char) : Bool :=
  character == '/' || character == ':'

def EndpointParts.ofText? (endpoint : List Char) : Option EndpointParts :=
  let word := endpoint.takeWhile isWordCharacter
  let afterWord := endpoint.dropWhile isWordCharacter
  let afterMark := afterWord.drop schemeMark.length
  let host := afterMark.takeWhile fun character => !endsHost character
  let rest := afterMark.dropWhile fun character => !endsHost character
  if word.isEmpty || !schemeMark.isPrefixOf afterWord || host.isEmpty then none
  else some ⟨word, host, rest⟩

/-! A colon with digits behind it is a port, and is left out. -/

def longestPort : Nat := 5

def withoutPort (rest : List Char) : List Char :=
  match rest with
  | ':' :: afterColon =>
      let digits := (afterColon.take longestPort).takeWhile isDigitOfAnyScript
      if digits.isEmpty then rest else afterColon.drop digits.length
  | _ => rest

def EndpointParts.withPort (parts : EndpointParts) (port : Nat) : List Char :=
  parts.word ++ schemeMark ++ parts.host ++ ':' :: (decimalDigits port ++ withoutPort parts.rest)

/-- The endpoint with another port, or the text as it is if it is no endpoint. -/
def replacePort (endpoint : List Char) (port : Nat) : List Char :=
  match EndpointParts.ofText? endpoint with
  | none => endpoint
  | some parts => parts.withPort port

example : String.ofList (replacePort "http://prom:9090/x".toList 80) = "http://prom:80/x" := by
  decide +kernel

example : String.ofList (replacePort "http://h:123456".toList 8080) = "http://h:80806" := by
  decide +kernel

end MetricWatch.CommandLine
