import MetricWatch.Response.Sample
import MetricWatch.Url.Resolve

namespace MetricWatch.Query

/-! An instant query is sent to the backend itself, or through a proxy that is told
the address of the backend. For the backend the expression is encoded into the
address. For a proxy the address is put together around the expression as it is,
and encoded as a whole. -/

/-- What is asked, and of which backend. -/
structure Question where
  origin : String
  expression : String

def queryPath : List Char := "/api/v1/query?query=".toList

def proxyPage : List Char := "proxy".toList

namespace Question

def directAddress (question : Question) : List Char :=
  question.origin.toList ++ queryPath ++ Url.encodeComponent question.expression.toList

def backendTarget (question : Question) : List Char :=
  question.origin.toList ++ queryPath ++ question.expression.toList

def proxyQuery (question : Question) : List Char :=
  "url=".toList ++ Url.encodeComponent question.backendTarget

/-- The address of the page of a proxy that is asked, as seen from the proxy. -/
def proxyReference (question : Question) : List Char :=
  proxyPage ++ '?' :: question.proxyQuery

/-- The address that is asked, which for a proxy is relative to it. -/
def addressText (question : Question) (throughProxy : Bool) : String :=
  if throughProxy then String.ofList question.proxyReference
  else String.ofList question.directAddress

end Question

/-- Why a query has no answer. -/
inductive Failure where
  | response (failure : Response.Failure)
  | address (fault : Url.Fault)
  | noProxy
  | transport

def Failure.message : Failure → String
  | .response failure => failure.message
  | .address fault => "invalid url: " ++ fault.message
  | .noProxy => "proxy requested but no proxy base url is configured"
  | .transport => "request failed"

/-- The backend's own words, if it was the backend that refused the query. -/
def Failure.backendMessage? : Failure → Option String
  | .response (.refused message) => some message
  | _ => none

variable [Url.NameMapping]

/-- The URL that is asked. A proxy serves queries on a page beside its own. -/
def requestUrl (proxy : Option Url) (question : Question) (throughProxy : Bool) :
    Except Failure Url :=
  if throughProxy then
    match proxy with
    | none => .error .noProxy
    | some base => (base.resolve question.proxyReference).mapError .address
  else (Url.parse question.directAddress).mapError .address

/-- What is sent: only web addresses can be asked, and neither the fragment nor the
user is a part of the address that is. -/
structure Request where
  url : Url
deriving DecidableEq

def isWebScheme (scheme : List Char) : Bool :=
  scheme = "http".toList || scheme = "https".toList

def withoutUser (url : Url) : Url :=
  { url with
    authority := url.authority.map fun authority =>
      { authority with userName := [], password := [] }
    fragment := none }

def Request.ofUrl? (url : Url) : Option Request :=
  if isWebScheme url.scheme then some ⟨withoutUser url⟩ else none

def Request.line (request : Request) : String :=
  "GET " ++ request.url.toText

/-- The request for a question. A URL that cannot be asked counts as a failed transport. -/
def prepare (proxy : Option Url) (question : Question) (throughProxy : Bool) :
    Except Failure Request := do
  let url ← requestUrl proxy question throughProxy
  match Request.ofUrl? url with
  | some request => return request
  | none => .error .transport

/-- What the body of the response says, if one has arrived. Its status does not
matter. -/
def conclude (body? : Option (List UInt8)) : Except Failure (Option (List Sample)) :=
  match body? with
  | none => .error .transport
  | some body => (Response.parse body).mapError .response

/-- A query over a network that answers every request with a body or not at all. -/
def run (network : Request → Option (List UInt8)) (proxy : Option Url) (question : Question)
    (throughProxy : Bool) : Except Failure (Option (List Sample)) := do
  let request ← prepare proxy question throughProxy
  conclude (network request)

end MetricWatch.Query
