import MetricWatch.Proofs.Url.Form
import MetricWatch.Query.Request

namespace MetricWatch.Query

open Url

/-! A backend that is asked directly gets the expression, and the expression is all that an
expression decides about the URL. -/

/-- The URLs ask the same page of the same host, as the same user. -/
structure SameTarget (url other : Url) : Prop where
  scheme : url.scheme = other.scheme
  authority : url.authority = other.authority
  path : url.path = other.path

/-- The expression is all that a URL says behind its path. -/
structure Delivers (url : Url) (expression : String) : Prop where
  pairs : url.queryPairs = [("query", expression)]
  noFragment : url.fragment = none

def queryName : List Char := "query".toList

def expressionQuery (expression : String) : List Char :=
  queryName ++ '=' :: encodeComponent expression.toList

theorem expressionQuery_eq (expression : String) :
    expressionQuery expression = pairQuery "query" expression := by
  have name : queryName = encodeComponent "query".toList := by decide +kernel
  rw [expressionQuery, name, pairQuery]

theorem isPlainQuery_expressionQuery (expression : String) :
    IsPlainQuery (expressionQuery expression) :=
  expressionQuery_eq expression ▸ isPlainQuery_pairQuery "query" expression

theorem queryPairs_asking (url : Url) (expression : String) :
    (url.asking (expressionQuery expression)).queryPairs = [("query", expression)] :=
  expressionQuery_eq expression ▸ queryPairs_asking_pairQuery url "query" expression

/-- The page that queries go to, with an empty query. -/
def emptyAddress (origin : String) : List Char :=
  origin.toList ++ "/api/v1/query".toList ++ ['?']

theorem requestUrl_direct [NameMapping] {origin : String} (noQuestion : '?' ∉ origin.toList)
    (noHash : '#' ∉ origin.toList) (proxy : Option Url) (expression : String) :
    requestUrl proxy ⟨origin, expression⟩ false =
      ((parse (emptyAddress origin)).mapError .address).map
        (asking (expressionQuery expression)) := by
  have address : Question.directAddress ⟨origin, expression⟩ =
      origin.toList ++ "/api/v1/query".toList ++ '?' :: expressionQuery expression := by
    have path : queryPath = "/api/v1/query".toList ++ '?' :: (queryName ++ ['=']) := by decide
    rw [Question.directAddress, path, expressionQuery]
    simp only [List.append_assoc, List.cons_append, List.nil_append]
  have noQuestionInFront : '?' ∉ origin.toList ++ "/api/v1/query".toList := by
    simp [noQuestion]
  have noHashInFront : '#' ∉ origin.toList ++ "/api/v1/query".toList := by
    simp [noHash]
  have plain := isPlainQuery_expressionQuery expression
  simp only [requestUrl, address, parse_append_query noQuestionInFront noHashInFront plain]
  rw [emptyAddress]
  cases parse (origin.toList ++ "/api/v1/query".toList ++ ['?']) <;> rfl

/-- No expression adds or changes a parameter, or anything in front of the parameters, and
none makes the URL fail that another one does not. -/
theorem requestUrl_delivers [NameMapping] {origin : String} (noQuestion : '?' ∉ origin.toList)
    (noHash : '#' ∉ origin.toList) (proxy : Option Url) (expression other : String) :
    (∀ failure, requestUrl proxy ⟨origin, expression⟩ false = .error failure ↔
      requestUrl proxy ⟨origin, other⟩ false = .error failure) ∧
    ∀ url, requestUrl proxy ⟨origin, expression⟩ false = .ok url →
      Delivers url expression ∧
        ∃ otherUrl, requestUrl proxy ⟨origin, other⟩ false = .ok otherUrl ∧
          Delivers otherUrl other ∧ SameTarget url otherUrl := by
  rw [requestUrl_direct noQuestion noHash, requestUrl_direct noQuestion noHash]
  cases (parse (emptyAddress origin)).mapError Failure.address with
  | error failure => exact ⟨fun _ => Iff.rfl, nofun⟩
  | ok page =>
      refine ⟨fun _ => ⟨nofun, nofun⟩, fun url isUrl => ?_⟩
      cases isUrl
      exact ⟨⟨queryPairs_asking page expression, rfl⟩, _, rfl,
        ⟨queryPairs_asking page other, rfl⟩, ⟨rfl, rfl, rfl⟩⟩

/-- What would be a second parameter, a fragment or another path arrives as a value. -/
theorem requestUrl_delivers_separators :
    '?' ∉ "http://prom:9090".toList ∧ '#' ∉ "http://prom:9090".toList ∧
      ∃ url, requestUrl none ⟨"http://prom:9090", "up&query=1#/../+'é"⟩ false = .ok url ∧
        Delivers url "up&query=1#/../+'é" := by
  have noQuestion : '?' ∉ "http://prom:9090".toList := by decide
  have noHash : '#' ∉ "http://prom:9090".toList := by decide
  have read : (requestUrl none ⟨"http://prom:9090", "up&query=1#/../+'é"⟩ false).isOk = true := by
    decide +kernel
  cases isUrl : requestUrl none ⟨"http://prom:9090", "up&query=1#/../+'é"⟩ false with
  | error failure =>
      rw [isUrl] at read
      cases read
  | ok url =>
      have delivered := requestUrl_delivers noQuestion noHash none "up&query=1#/../+'é" ""
      exact ⟨noQuestion, noHash, url, rfl, (delivered.2 url isUrl).1⟩

end MetricWatch.Query
