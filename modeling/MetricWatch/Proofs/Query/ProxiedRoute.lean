import MetricWatch.Proofs.Url.Resolve
import MetricWatch.Query.Request

namespace MetricWatch.Query

open Url

/-! A proxy is told the address of the backend as it is. The address takes part in the URL
as a value only: no origin and no expression leads away from the page of the proxy. -/

/-- The URL asks the page of the proxy, which lies beside the base, and nothing stands behind
the path but the address of the backend. -/
structure AsksProxy (base : Url) (target : String) (url : Url) : Prop where
  scheme : url.scheme = base.scheme
  authority : url.authority = base.authority
  path : url.pathText = upToLastSlash base.pathText ++ proxyPage
  pairs : url.queryPairs = [("url", target)]
  noFragment : url.fragment = none

theorem isPageName_proxyPage : IsPageName proxyPage where
  nonempty := by decide
  plain := by simp [IsPlainQuery, proxyPage, isEdgeBlank]
  noQuestion := by decide
  isOne := by simp [proxyPage, separatesSegments]
  notSingleDot := by decide
  notDoubleDot := by decide
  encoded := by decide

theorem schemeKind_of_isWebScheme {scheme : List Char} (isWeb : isWebScheme scheme = true) :
    schemeKind scheme = .special := by
  simp only [isWebScheme, Bool.or_eq_true, decide_eq_true_eq] at isWeb
  rcases isWeb with rfl | rfl <;> decide

def Question.target (question : Question) : String :=
  question.origin ++ "/api/v1/query?query=" ++ question.expression

theorem backendTarget_eq (question : Question) :
    question.backendTarget = question.target.toList := by
  rw [Question.backendTarget, Question.target, String.toList_append, String.toList_append]
  rfl

theorem proxyQuery_eq (question : Question) :
    question.proxyQuery = pairQuery "url" question.target := by
  have name : "url=".toList = encodeComponent "url".toList ++ ['='] := by decide +kernel
  rw [Question.proxyQuery, backendTarget_eq, name, pairQuery, List.append_assoc]
  simp only [List.cons_append, List.nil_append]

section Base

variable {base : Url} {segments : List (List Char)} (hasPlace : base.HasPlace segments)
  (question : Question)

include hasPlace

theorem asksProxy_beside :
    AsksProxy base question.target (base.beside segments proxyPage question.proxyQuery) where
  scheme := rfl
  authority := rfl
  path := hasPlace.pathText (base.beside segments proxyPage question.proxyQuery) rfl rfl
  pairs := by
    rw [proxyQuery_eq]
    exact queryPairs_beside base segments proxyPage "url" question.target
  noFragment := rfl

theorem requestUrl_throughProxy [NameMapping] (isWeb : isWebScheme base.scheme = true) :
    requestUrl (some base) question true =
      .ok (base.beside segments proxyPage question.proxyQuery) := by
  have isSpecial := schemeKind_of_isWebScheme isWeb
  have plain : IsPlainQuery question.proxyQuery :=
    proxyQuery_eq question ▸ isPlainQuery_pairQuery "url" question.target
  simp only [requestUrl, if_true, Question.proxyReference,
    resolve_page isPageName_proxyPage isSpecial hasPlace plain]
  rfl

end Base

/-- Every origin and every expression reach the proxy character for character, and what the
base itself asks for does not. -/
theorem requestUrl_asksProxy [NameMapping] {text : List Char} {base : Url}
    (isBase : Url.parse text = .ok base) (isWeb : isWebScheme base.scheme = true)
    (origin expression : String) :
    ∃ url, requestUrl (some base) ⟨origin, expression⟩ true = .ok url ∧
      AsksProxy base (origin ++ "/api/v1/query?query=" ++ expression) url ∧
      ∀ query fragment,
        requestUrl (some { base with query, fragment }) ⟨origin, expression⟩ true = .ok url := by
  rcases hasPlace_of_parse isBase (schemeKind_of_isWebScheme isWeb) with ⟨segments, hasPlace⟩
  refine ⟨_, requestUrl_throughProxy hasPlace ⟨origin, expression⟩ isWeb,
    asksProxy_beside hasPlace ⟨origin, expression⟩, fun query fragment => ?_⟩
  have sameSegments : ({ base with query, fragment } : Url).HasPlace segments :=
    ⟨hasPlace.authority, hasPlace.path, hasPlace.nonempty, hasPlace.noSlash⟩
  exact requestUrl_throughProxy sameSegments ⟨origin, expression⟩ isWeb

/-- Even where the origin is no URL, and the expression is full of marks. -/
theorem requestUrl_asksProxy_marks :
    ∃ base url, Url.parse "http://u:p@dash:8080/a/b?x=1#f".toList = .ok base ∧
      isWebScheme base.scheme = true ∧
      requestUrl (some base) ⟨"//c:\\?d#", "e:/ f&+%41\té"⟩ true = .ok url ∧
      AsksProxy base "//c:\\?d#/api/v1/query?query=e:/ f&+%41\té" url ∧
      url.pathText = "/a/proxy".toList := by
  cases isBase : Url.parse "http://u:p@dash:8080/a/b?x=1#f".toList with
  | error fault =>
      have read : (Url.parse "http://u:p@dash:8080/a/b?x=1#f".toList).isOk = true := by
        decide +kernel
      rw [isBase] at read
      cases read
  | ok base =>
      have shape : (Url.parse "http://u:p@dash:8080/a/b?x=1#f".toList).toOption.map
          (fun base => (isWebScheme base.scheme, base.pathText)) =
            some (true, "/a/b".toList) := by
        decide +kernel
      rw [isBase] at shape
      have ⟨isWeb, path⟩ := Prod.mk.inj (Option.some.inj shape)
      rcases requestUrl_asksProxy isBase isWeb "//c:\\?d#" "e:/ f&+%41\té" with
        ⟨url, isUrl, asksProxy, _⟩
      refine ⟨base, url, rfl, isWeb, isUrl, asksProxy, ?_⟩
      rw [asksProxy.path, path]
      decide +kernel

end MetricWatch.Query
