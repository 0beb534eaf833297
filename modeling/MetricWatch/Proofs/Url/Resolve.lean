import MetricWatch.Proofs.Outcome
import MetricWatch.Proofs.Url.Form
import MetricWatch.Url.Resolve

namespace MetricWatch.Url

/-! A special URL that has been read has a host, and a path whose last slash tells the
place of a page from the page. -/

structure HasPlace (url : Url) (segments : List (List Char)) : Prop where
  authority : url.authority.isSome
  path : url.path = .segments segments
  nonempty : segments ≠ []
  noSlash : ∀ segment ∈ segments, '/' ∉ segment

theorem mem_shorten {reversed : List (List Char)} {segment : List Char}
    (member : segment ∈ shorten reversed) : segment ∈ reversed := by
  cases reversed with
  | nil => cases member
  | cons last rest =>
      simp only [shorten] at member
      split at member
      · exact member
      · exact List.mem_cons_of_mem last member

theorem mem_addSegment {isLast : Bool} {reversed : List (List Char)} {text segment : List Char}
    (member : segment ∈ addSegment isLast reversed text) :
    segment = [] ∨ segment = percentEncode allowedInPath text ∨ segment ∈ reversed := by
  simp only [addSegment] at member
  split at member
  · split at member
    · rcases List.mem_cons.mp member with rfl | earlier
      · exact .inl rfl
      · exact .inr (.inr (mem_shorten earlier))
    · exact .inr (.inr (mem_shorten member))
  · split at member
    · split at member
      · rcases List.mem_cons.mp member with rfl | earlier
        · exact .inl rfl
        · exact .inr (.inr earlier)
      · exact .inr (.inr member)
    · rcases List.mem_cons.mp member with rfl | earlier
      · exact .inr (.inl rfl)
      · exact .inr (.inr earlier)

theorem addSegment_last_ne_nil (reversed : List (List Char)) (text : List Char) :
    addSegment true reversed text ≠ [] := by
  simp only [addSegment, if_true]
  split
  · simp
  · split <;> simp

theorem mem_addSegments {parts reversed : List (List Char)} {segment : List Char}
    (member : segment ∈ addSegments addSegment reversed parts) :
    segment = [] ∨ (∃ part ∈ parts, segment = percentEncode allowedInPath part) ∨
      segment ∈ reversed := by
  fun_induction addSegments addSegment reversed parts with
  | case1 reversed => exact .inr (.inr member)
  | case2 reversed last =>
      rcases mem_addSegment member with isEmpty | isLast | earlier
      · exact .inl isEmpty
      · exact .inr (.inl ⟨last, List.mem_cons_self, isLast⟩)
      · exact .inr (.inr earlier)
  | case3 reversed first parts _ induction =>
      rcases induction member with isEmpty | ⟨part, isPart, equal⟩ | earlier
      · exact .inl isEmpty
      · exact .inr (.inl ⟨part, List.mem_cons_of_mem first isPart, equal⟩)
      · rcases mem_addSegment earlier with isEmpty | isFirst | earlier
        · exact .inl isEmpty
        · exact .inr (.inl ⟨first, List.mem_cons_self, isFirst⟩)
        · exact .inr (.inr earlier)

theorem addSegments_ne_nil {parts : List (List Char)} (nonempty : parts ≠ [])
    (reversed : List (List Char)) : addSegments addSegment reversed parts ≠ [] := by
  fun_induction addSegments addSegment reversed parts with
  | case1 => exact absurd rfl nonempty
  | case2 reversed last => exact addSegment_last_ne_nil reversed last
  | case3 reversed first parts several induction =>
      exact induction fun none => several (by simp [none])

theorem readSegments_ne_nil (kind : SchemeKind) (text : List Char) :
    readSegments kind text ≠ [] := by
  rw [readSegments, ne_eq, List.reverse_eq_nil_iff]
  exact addSegments_ne_nil (partsBetween_ne_nil _ text) []

theorem noSlash_of_mem_readSegments {kind : SchemeKind} {text segment : List Char}
    (member : segment ∈ readSegments kind text) : '/' ∉ segment := by
  rw [readSegments, List.mem_reverse] at member
  rcases mem_addSegments member with rfl | ⟨part, isPart, rfl⟩ | impossible
  · exact List.not_mem_nil
  · refine not_mem_percentEncode_of_not_mem (by decide) (by decide) fun inPart => ?_
    have separates := not_separates_of_mem_partsBetween isPart inPart
    simp [separatesSegments] at separates
  · cases impossible

section Names

variable [NameMapping] {text : List Char} {tailed : Tailed} {url : Url}

theorem scheme_of_readFile (isUrl : readFile tailed = .ok url) : url.scheme = "file".toList := by
  have scheme : ∀ host path, (fileUrl host path tailed).scheme = "file".toList :=
    fun _ _ => rfl
  simp only [readFile] at isUrl
  split at isUrl
  · cases isUrl
    exact scheme _ _
  · split at isUrl
    · cases isUrl
      exact scheme _ _
    · rename_i behind _
      simp only [readFileAuthority] at isUrl
      split at isUrl
      · cases isUrl
        exact scheme _ _
      · rcases bind_eq_ok_iff.mp isUrl with ⟨host, _, isUrl⟩
        cases isUrl
        exact scheme _ _

theorem afterSlashes_eq_ok {scheme : List Char}
    (isUrl : afterSlashes scheme tailed text = .ok url) :
    ∃ authority pathText, url =
      assemble scheme (some authority) (.segments (readPath (schemeKind scheme) pathText))
        tailed := by
  rcases bind_eq_ok_iff.mp isUrl with ⟨read, _, isUrl⟩
  cases isUrl
  exact ⟨_, _, rfl⟩

theorem scheme_of_readOrdinary {scheme : List Char}
    (isUrl : readOrdinary scheme tailed = .ok url) : url.scheme = scheme := by
  simp only [readOrdinary] at isUrl
  split at isUrl
  · rcases afterSlashes_eq_ok isUrl with ⟨_, _, rfl⟩
    rfl
  · cases isUrl
    rfl
  · cases isUrl
    rfl

omit [NameMapping] in
theorem eq_file_of_schemeKind {scheme : List Char} (isFile : schemeKind scheme = .file) :
    scheme = "file".toList := by
  simp only [schemeKind] at isFile
  split at isFile
  · assumption
  · split at isFile <;> cases isFile

theorem scheme_of_readAs {scheme : List Char} (isUrl : readAs scheme tailed = .ok url) :
    url.scheme = scheme := by
  cases kind : schemeKind scheme with
  | file =>
      simp only [readAs, kind] at isUrl
      rw [scheme_of_readFile isUrl, eq_file_of_schemeKind kind]
  | special =>
      simp only [readAs, kind] at isUrl
      rcases afterSlashes_eq_ok isUrl with ⟨_, _, rfl⟩
      rfl
  | ordinary =>
      simp only [readAs, kind] at isUrl
      exact scheme_of_readOrdinary isUrl

theorem hasPlace_of_readSpecial {scheme : List Char} (isSpecial : schemeKind scheme = .special)
    (isUrl : readSpecial scheme tailed = .ok url) : ∃ segments, url.HasPlace segments := by
  rcases afterSlashes_eq_ok isUrl with ⟨authority, pathText, rfl⟩
  have segmented : readPath (schemeKind scheme) pathText =
      readSegments .special (withoutSlash .special pathText) := by
    rw [isSpecial, readPath]
    simp [SchemeKind.isSpecial]
  refine ⟨readSegments .special (withoutSlash .special pathText), rfl, ?_,
    readSegments_ne_nil _ _, fun _ => noSlash_of_mem_readSegments⟩
  rw [assemble, segmented]

theorem hasPlace_of_parse (isUrl : parse text = .ok url)
    (isSpecial : schemeKind url.scheme = .special) : ∃ segments, url.HasPlace segments := by
  cases isSplit : splitScheme? (trimEdges text) with
  | none =>
      simp only [parse, isSplit] at isUrl
      cases isUrl
  | some split =>
      rw [parse_of_splitScheme? isSplit] at isUrl
      rw [scheme_of_readAs isUrl] at isSpecial
      simp only [readAs, isSpecial] at isUrl
      exact hasPlace_of_readSpecial isSpecial isUrl

end Names

/-! The path as text. -/

def pathText (url : Url) : List Char :=
  url.path.write url.authority.isSome

def upToLastSlash (text : List Char) : List Char :=
  text.rdropWhile (· != '/')

theorem segmentsText_concat (segments : List (List Char)) (last : List Char) :
    segmentsText (segments ++ [last]) = segmentsText segments ++ '/' :: last := by
  simp [segmentsText]

theorem upToLastSlash_append {page : List Char} (noSlash : '/' ∉ page) (place : List Char) :
    upToLastSlash (place ++ '/' :: page) = place ++ ['/'] := by
  have notSlash : ∀ character ∈ page.reverse, (character != '/') = true :=
    fun character member => ne_mark noSlash character (List.mem_reverse.mp member)
  rw [upToLastSlash, List.rdropWhile, List.reverse_append, List.reverse_cons, List.append_assoc,
    List.dropWhile_append_of_pos notSlash]
  simp

/-- What is behind the last slash of a path is its last segment. -/
theorem HasPlace.pathText {url : Url} {segments : List (List Char)}
    (hasPlace : url.HasPlace segments) (other : Url) (sameHost : other.authority = url.authority)
    {page : List Char} (isBeside : other.path = .segments (segments.dropLast ++ [page])) :
    other.pathText = upToLastSlash url.pathText ++ page := by
  have noSlash : '/' ∉ segments.getLast hasPlace.nonempty :=
    hasPlace.noSlash _ (List.getLast_mem hasPlace.nonempty)
  have parted := List.dropLast_append_getLast hasPlace.nonempty
  have written : url.pathText =
      segmentsText segments.dropLast ++ '/' :: segments.getLast hasPlace.nonempty := by
    rw [← segmentsText_concat, parted, Url.pathText, hasPlace.path, hasPlace.authority]
    rfl
  rw [written, upToLastSlash_append noSlash, Url.pathText, isBeside, sameHost,
    hasPlace.authority]
  simp [Path.write, segmentsText_concat]

/-! A reference to a page beside the one where it is read, with a query. -/

/-- A page that is named by nothing but itself. -/
structure IsPageName (page : List Char) : Prop where
  nonempty : page ≠ []
  plain : IsPlainQuery page
  noQuestion : '?' ∉ page
  isOne : ∀ character ∈ page, separatesSegments .special character = false
  notSingleDot : isSingleDot page = false
  notDoubleDot : isDoubleDot page = false
  encoded : percentEncode allowedInPath page = page

/-- The URL of a page beside another one, which is asked a query. -/
def beside (base : Url) (segments : List (List Char)) (page query : List Char) : Url :=
  assemble base.scheme base.authority (.segments (segments.dropLast ++ [page]))
    (.asking page query)

theorem queryPairs_beside (base : Url) (segments : List (List Char)) (page : List Char)
    (name value : String) :
    (base.beside segments page (pairQuery name value)).queryPairs = [(name, value)] :=
  (formPairs_encodeQuery _ _).trans (formPairs_pairQuery name value)

section Page

variable {page : List Char} (isName : IsPageName page)

include isName

theorem segmentsFrom_page (segments : List (List Char)) :
    segmentsFrom .special segments page = segments.dropLast ++ [page] := by
  rw [segmentsFrom, partsBetween_of_forall isName.isOne, addSegments, addSegment,
    isName.notDoubleDot, isName.notSingleDot, isName.encoded]
  simp

theorem dropWhile_page : page.dropWhile isEdgeBlank = page := by
  cases page with
  | nil => rfl
  | cons first rest =>
      have notBlank := (isName.plain first List.mem_cons_self).2.2
      rw [List.dropWhile_cons_of_neg (by simp [notBlank])]

variable [NameMapping] {base : Url} (isSpecial : schemeKind base.scheme = .special)

include isSpecial

theorem fromPlace_page (segments : List (List Char)) (query : List Char) :
    base.fromPlace segments (.asking page query) = .ok (base.beside segments page query) := by
  have front : withoutIgnored page = page := withoutIgnored_of_isPlainQuery isName.plain
  have read := segmentsFrom_page isName segments
  have notSlash := isName.isOne
  have nonempty := isName.nonempty
  rw [beside]
  cases page with
  | nil => exact absurd rfl nonempty
  | cons first rest =>
      simp only [fromPlace, Tailed.asking, front, isSpecial,
        notSlash first List.mem_cons_self, Bool.not_false, if_true, read]

/-- The host is asked a page beside the one of the base, whatever the query is. -/
theorem resolve_page {segments : List (List Char)} (hasPlace : base.HasPlace segments)
    {query : List Char} (plain : IsPlainQuery query) :
    base.resolve (page ++ '?' :: query) = .ok (base.beside segments page query) := by
  have trimmed : trimEdges (page ++ '?' :: query) = page ++ '?' :: query := by
    rw [trimEdges_append_query, dropWhile_page isName, rdropWhile_of_isPlainQuery plain]
  have noColon : ':' ∉ page ++ '?' :: query := by
    have notInPage : ':' ∉ page := fun member => (isName.plain ':' member).1 rfl
    have notInQuery : ':' ∉ query := fun member => (plain ':' member).1 rfl
    simp [notInPage, notInQuery]
  have noHash : '#' ∉ page := fun member => (isName.plain '#' member).2.1 rfl
  have tailed : splitTail (page ++ '?' :: query) = .asking page query := by
    have split := splitTail_append isName.noQuestion noHash query
    rwa [rdropWhile_of_isPlainQuery plain, queryIn_of_isPlainQuery plain,
      fragmentIn_of_isPlainQuery plain] at split
  simp only [resolve, trimmed, splitScheme?_of_not_mem noColon, follow, tailed, hasPlace.path,
    isSpecial]
  exact fromPlace_page isName isSpecial segments query

end Page

end MetricWatch.Url
