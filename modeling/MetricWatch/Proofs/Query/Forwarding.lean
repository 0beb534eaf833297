import MetricWatch.Proofs.Query.DirectRoute
import MetricWatch.Proofs.Query.ProxiedRoute

namespace MetricWatch.Query

open Url

/-! A proxy forwards the address that it is told. The expression stands in it as it is, and
where it says something to whoever reads an address, the backend is asked something else than
it is asked directly. -/

/-- The expressions that a backend gets in an address they have been put in as they are. -/
structure Survives (expression : String) : Prop where
  noMark : ∀ character ∈ expression.toList,
    character ∉ ['#', '&', '+', '\t', '\n', '\r']
  noEscape : ∀ high low, ['%', high, low] <:+: expression.toList →
    ¬((hexValue? high).isSome ∧ (hexValue? low).isSome)
  noEdge : ∀ last ∈ expression.toList.getLast?, 0x20 < last.toNat

theorem noEscape_iff {text : List Char} :
    NoEscape text ↔ ∀ high low, ['%', high, low] <:+: text →
      ¬((hexValue? high).isSome ∧ (hexValue? low).isSome) := by
  constructor
  · rintro noEscape high low ⟨before, behind, rfl⟩ ⟨isHigh, isLow⟩
    have none := noEscape ('%' :: high :: low :: behind) ⟨before, by simp⟩
    rcases Option.isSome_iff_exists.mp isHigh with ⟨upper, isHigh⟩
    rcases Option.isSome_iff_exists.mp isLow with ⟨lower, isLow⟩
    simp [escape?, isHigh, isLow] at none
  · rintro noEscape suffix ⟨before, rfl⟩
    apply Option.eq_none_iff_forall_ne_some.mpr
    intro value isEscape
    simp only [escape?] at isEscape
    split at isEscape
    · rename_i high low behind
      split at isEscape
      · rename_i isHigh isLow
        exact noEscape high low ⟨before, behind, by simp⟩
          ⟨Option.isSome_of_eq_some isHigh, Option.isSome_of_eq_some isLow⟩
      · cases isEscape
    · cases isEscape

/-- Nothing is cut off, no second parameter begins, and what is left is read as written. -/
theorem survives_iff {expression : String} :
    Survives expression ↔ queryIn expression.toList = expression.toList ∧
      '&' ∉ expression.toList ∧ formText expression.toList = expression := by
  have read : formText expression.toList = expression ↔
      '+' ∉ expression.toList ∧ NoEscape expression.toList := by
    rw [← formText_eq_ofList_iff, String.ofList_toList]
  rw [read, queryIn_eq_self_iff, noEscape_iff]
  constructor
  · rintro ⟨noMark, noEscape, noEdge⟩
    have no : ∀ mark, mark ∈ ['#', '&', '+', '\t', '\n', '\r'] → mark ∉ expression.toList :=
      fun mark isMark member => noMark mark member isMark
    refine ⟨⟨no '#' (by simp), ?_, ?_⟩, no '&' (by simp), no '+' (by simp), noEscape⟩
    · intro character member
      have notMark := noMark character member
      simp only [List.mem_cons, not_or] at notMark
      simp [isIgnored, notMark]
    · intro last isLast
      simpa [isEdgeBlank] using noEdge last isLast
  · rintro ⟨⟨noHash, noIgnored, noEdge⟩, noAmpersand, noPlus, noEscape⟩
    refine ⟨?_, noEscape, ?_⟩
    · intro character member isMark
      have notIgnored := noIgnored character member
      simp only [List.mem_cons, List.not_mem_nil, or_false] at isMark
      rcases isMark with rfl | rfl | rfl | rfl | rfl | rfl
      · exact noHash member
      · exact noAmpersand member
      · exact noPlus member
      all_goals cases notIgnored
    · intro last isLast
      simpa [isEdgeBlank] using noEdge last isLast

/-- What is left of an expression in the address is never longer than the expression, and what
is read from it is not longer either: the expression is read only where nothing is lost. -/
theorem formPairs_rawQuery_iff {expression : String} :
    formPairs (queryIn (queryName ++ '=' :: expression.toList)) = [("query", expression)] ↔
      Survives expression := by
  have plain : IsPlainQuery (queryName ++ ['=']) := by
    simp [IsPlainQuery, queryName, isEdgeBlank]
  have kept : queryIn (queryName ++ '=' :: expression.toList) =
      queryName ++ '=' :: queryIn expression.toList := by
    have split := queryIn_append plain expression.toList
    simpa only [List.append_assoc, List.singleton_append] using split
  have name : formText queryName = "query" := by decide +kernel
  have noEqualsSign : '=' ∉ queryName := by decide
  have noAmpersandYet : '&' ∉ queryName := by decide
  have within := queryIn_sublist expression.toList
  rw [kept, survives_iff]
  by_cases hasAmpersand : '&' ∈ queryIn expression.toList
  · rcases List.eq_append_cons_of_mem hasAmpersand with ⟨before, behind, parted, notBefore⟩
    constructor
    · intro pairs
      have noAmpersand : '&' ∉ queryName ++ '=' :: before := by simp [noAmpersandYet, notBefore]
      rw [parted, ← List.cons_append, ← List.append_assoc,
        formPairs_append noEqualsSign noAmpersand] at pairs
      have read : formText before = expression := (Prod.mk.inj (List.cons.inj pairs).1).2
      have atMost := length_formText_le before
      have shorter := within.length_le
      rw [read] at atMost
      rw [parted, List.length_append, List.length_cons] at shorter
      omega
    · rintro ⟨same, noAmpersand, _⟩
      exact absurd (same ▸ hasAmpersand) noAmpersand
  · have noAmpersand : '&' ∉ queryName ++ '=' :: queryIn expression.toList := by
      simp [noAmpersandYet, hasAmpersand]
    rw [formPairs_of_not_mem noEqualsSign noAmpersand, name]
    constructor
    · intro pairs
      have read : formText (queryIn expression.toList) = expression :=
        (Prod.mk.inj (List.cons.inj pairs).1).2
      have atMost := length_formText_le (queryIn expression.toList)
      rw [read] at atMost
      have same := within.eq_of_length_le atMost
      rw [same] at read hasAmpersand
      exact ⟨same, hasAmpersand, read⟩
    · rintro ⟨same, _, read⟩
      rw [same, read]

section Origin

variable [NameMapping] {origin : String} (noQuestion : '?' ∉ origin.toList)
  (noHash : '#' ∉ origin.toList)

include noQuestion noHash

theorem page_of_requestUrl {proxy : Option Url} {expression : String} {direct : Url}
    (isDirect : requestUrl proxy ⟨origin, expression⟩ false = .ok direct) :
    ∃ page, Url.parse (emptyAddress origin) = .ok page ∧
      direct = page.asking (expressionQuery expression) := by
  rw [requestUrl_direct noQuestion noHash] at isDirect
  cases isPage : Url.parse (emptyAddress origin) with
  | error fault =>
      rw [isPage] at isDirect
      cases isDirect
  | ok page =>
      rw [isPage] at isDirect
      cases isDirect
      exact ⟨page, rfl, rfl⟩

/-- The address that a proxy is told is a URL if the one that is asked directly is, and both
ask the same page. -/
theorem parse_target {proxy : Option Url} {expression : String} {direct : Url}
    (isDirect : requestUrl proxy ⟨origin, expression⟩ false = .ok direct) :
    ∃ forwarded, Url.parse (origin ++ "/api/v1/query?query=" ++ expression).toList =
        .ok forwarded ∧
      SameTarget forwarded direct ∧
      forwarded.queryPairs = formPairs (queryIn (queryName ++ '=' :: expression.toList)) := by
  have target : (origin ++ "/api/v1/query?query=" ++ expression).toList =
      origin.toList ++ "/api/v1/query".toList ++
        '?' :: (queryName ++ '=' :: expression.toList) := by
    have path : "/api/v1/query?query=".toList =
        "/api/v1/query".toList ++ '?' :: (queryName ++ ['=']) := by decide
    rw [String.toList_append, String.toList_append, path]
    simp only [List.append_assoc, List.cons_append, List.nil_append]
  have noQuestionInFront : '?' ∉ origin.toList ++ "/api/v1/query".toList := by
    simp [noQuestion]
  have noHashInFront : '#' ∉ origin.toList ++ "/api/v1/query".toList := by
    simp [noHash]
  rcases page_of_requestUrl noQuestion noHash isDirect with ⟨page, isPage, rfl⟩
  rw [target, parse_append_eq_ok noQuestionInFront noHashInFront isPage]
  exact ⟨_, rfl, ⟨rfl, rfl, rfl⟩, formPairs_encodeQuery _ _⟩

/-- Both ways ask the backend the same if the expression survives in the address, and
only then. -/
theorem forwards_iff_survives {expression : String} {proxyText : List Char} {base direct : Url}
    (isDirect : requestUrl (some base) ⟨origin, expression⟩ false = .ok direct)
    (isBase : Url.parse proxyText = .ok base) (isWeb : isWebScheme base.scheme = true) :
    direct.queryPairs = [("query", expression)] ∧
    ∃ proxied target forwarded,
      requestUrl (some base) ⟨origin, expression⟩ true = .ok proxied ∧
      proxied.queryPairs = [("url", target)] ∧
      Url.parse target.toList = .ok forwarded ∧
      SameTarget forwarded direct ∧
      (forwarded.queryPairs = [("query", expression)] ↔ Survives expression) := by
  rcases page_of_requestUrl noQuestion noHash isDirect with ⟨page, _, isAsking⟩
  rcases parse_target noQuestion noHash isDirect with ⟨forwarded, isForwarded, sameTarget, pairs⟩
  rcases hasPlace_of_parse isBase (schemeKind_of_isWebScheme isWeb) with ⟨segments, hasPlace⟩
  have asksProxy := asksProxy_beside hasPlace ⟨origin, expression⟩
  refine ⟨?_, _, _, forwarded, requestUrl_throughProxy hasPlace ⟨origin, expression⟩ isWeb,
    asksProxy.pairs, isForwarded, sameTarget, ?_⟩
  · rw [isAsking]
    exact queryPairs_asking page expression
  · rw [pairs]
    exact formPairs_rawQuery_iff

end Origin

/-- A sum is asked as something else through a proxy. -/
theorem forwards_otherwise_sum :
    '?' ∉ "http://prom:9090".toList ∧ '#' ∉ "http://prom:9090".toList ∧
      ∃ base direct proxied target forwarded,
        Url.parse "http://dash/a/b?x=1#y".toList = .ok base ∧
        isWebScheme base.scheme = true ∧
        requestUrl (some base) ⟨"http://prom:9090", "a + b"⟩ false = .ok direct ∧
        direct.queryPairs = [("query", "a + b")] ∧
        requestUrl (some base) ⟨"http://prom:9090", "a + b"⟩ true = .ok proxied ∧
        proxied.queryPairs = [("url", target)] ∧
        Url.parse target.toList = .ok forwarded ∧
        forwarded.queryPairs ≠ [("query", "a + b")] := by
  have noQuestion : '?' ∉ "http://prom:9090".toList := by decide
  have noHash : '#' ∉ "http://prom:9090".toList := by decide
  have notSurvives : ¬Survives "a + b" := fun survives =>
    survives.noMark '+' (by decide) (by decide)
  have read : (Url.parse "http://dash/a/b?x=1#y".toList).toOption.map
      (fun base => isWebScheme base.scheme) = some true := by
    decide +kernel
  have asked : ∀ base,
      (requestUrl (some base) ⟨"http://prom:9090", "a + b"⟩ false).isOk = true := by
    intro base
    exact show (requestUrl none ⟨"http://prom:9090", "a + b"⟩ false).isOk = true by decide +kernel
  cases isBase : Url.parse "http://dash/a/b?x=1#y".toList with
  | error fault =>
      rw [isBase] at read
      cases read
  | ok base =>
      rw [isBase] at read
      cases isDirect : requestUrl (some base) ⟨"http://prom:9090", "a + b"⟩ false with
      | error failure =>
          have impossible := asked base
          rw [isDirect] at impossible
          cases impossible
      | ok direct =>
          rcases forwards_iff_survives noQuestion noHash isDirect isBase
              (Option.some.inj read) with
            ⟨pairs, proxied, target, forwarded, isProxied, proxiedPairs, isForwarded, _, iff⟩
          exact ⟨noQuestion, noHash, base, direct, proxied, target, forwarded, rfl,
            Option.some.inj read, isDirect, pairs, isProxied, proxiedPairs, isForwarded,
            fun same => notSurvives (iff.mp same)⟩

end MetricWatch.Query
