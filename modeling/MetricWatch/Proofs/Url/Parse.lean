import Mathlib.Data.List.DropRight
import Mathlib.Data.List.TakeWhile
import MetricWatch.Url.Parse

namespace MetricWatch.Url

/-! A mark splits a text where it comes first. -/

section Mark

variable {mark : Char} {text : List Char} (notMember : mark ∉ text)

include notMember

theorem ne_mark : ∀ character ∈ text, (character != mark) = true := by
  intro character member
  exact bne_iff_ne.mpr fun same => notMember (same ▸ member)

theorem splitAtMark_append (behind : List Char) :
    splitAtMark mark (text ++ mark :: behind) = (text, some behind) := by
  rw [splitAtMark, List.dropWhile_append_of_pos (ne_mark notMember),
    List.takeWhile_append_of_pos (ne_mark notMember)]
  simp

theorem splitAtMark_of_not_mem : splitAtMark mark text = (text, none) := by
  have nothing : text.dropWhile (· != mark) = [] :=
    List.dropWhile_eq_nil_iff.mpr (ne_mark notMember)
  rw [splitAtMark, nothing]

theorem splitAtMark_append_of_not_mem (rest : List Char) :
    splitAtMark mark (text ++ rest) =
      (text ++ (splitAtMark mark rest).1, (splitAtMark mark rest).2) := by
  by_cases hasMark : mark ∈ rest
  · rcases List.eq_append_cons_of_mem hasMark with ⟨before, behind, rfl, notBefore⟩
    have notInFront : mark ∉ text ++ before := by simp [notMember, notBefore]
    rw [← List.append_assoc, splitAtMark_append notInFront, splitAtMark_append notBefore]
  · have nowhere : mark ∉ text ++ rest := by simp [notMember, hasMark]
    rw [splitAtMark_of_not_mem nowhere, splitAtMark_of_not_mem hasMark]

end Mark

/-! What is behind the question mark is put into a URL and does nothing else there. -/

/-- A URL with another query and another fragment. -/
def saying (query : List Char) (fragment : Option (List Char)) (url : Url) : Url :=
  { url with
    query := some (encodeQuery (schemeKind url.scheme) query)
    fragment := fragment.map encodeFragment }

/-- A URL with another query, and without a fragment. -/
def asking (query : List Char) (url : Url) : Url :=
  { url with
    query := some (encodeQuery (schemeKind url.scheme) query)
    fragment := none }

def Tailed.asking (front query : List Char) : Tailed :=
  ⟨front, some query, none⟩

section Names

variable [NameMapping]

/-- The URL of a scheme, with what is behind the colon. -/
def readAs (scheme : List Char) (tailed : Tailed) : Except Fault Url :=
  match schemeKind scheme with
  | .file => readFile tailed
  | .special => readSpecial scheme tailed
  | .ordinary => readOrdinary scheme tailed

theorem parse_of_splitScheme? {text scheme rest : List Char}
    (isSplit : splitScheme? (trimEdges text) = some (scheme, rest)) :
    parse text = readAs scheme (splitTail rest) := by
  rw [parse, isSplit]
  rfl

section Saying

variable (front query : List Char) (fragment : Option (List Char))

theorem afterSlashes_saying (scheme text : List Char) :
    afterSlashes scheme ⟨front, some query, fragment⟩ text =
      (afterSlashes scheme (.asking front []) text).map (saying query fragment) := by
  simp only [afterSlashes, Tailed.asking, Option.isNone_some, Bool.and_false, Bool.false_and]
  cases readAuthority scheme _ _ with
  | error fault => rfl
  | ok read => rfl

theorem readFileAuthority_saying (text : List Char) :
    readFileAuthority text ⟨front, some query, fragment⟩ =
      (readFileAuthority text (.asking front [])).map (saying query fragment) := by
  simp only [readFileAuthority]
  split
  · rfl
  · cases readFileHost _ with
    | error fault => rfl
    | ok host => rfl

theorem readFile_saying :
    readFile ⟨front, some query, fragment⟩ =
      (readFile (.asking front [])).map (saying query fragment) := by
  simp only [readFile, Tailed.asking]
  split
  · rfl
  · split
    · rfl
    · exact readFileAuthority_saying front query fragment _

theorem readOrdinary_saying (scheme : List Char) :
    readOrdinary scheme ⟨front, some query, fragment⟩ =
      (readOrdinary scheme (.asking front [])).map (saying query fragment) := by
  simp only [readOrdinary, Tailed.asking]
  split
  · exact afterSlashes_saying front query fragment scheme _
  · rfl
  · rfl

theorem readAs_saying (scheme : List Char) :
    readAs scheme ⟨front, some query, fragment⟩ =
      (readAs scheme (.asking front [])).map (saying query fragment) := by
  simp only [readAs]
  cases schemeKind scheme with
  | file => exact readFile_saying front query fragment
  | special => exact afterSlashes_saying front query fragment scheme _
  | ordinary => exact readOrdinary_saying front query fragment scheme

end Saying

end Names

/-! Where a query starts does not depend on what it says. -/

theorem rdropWhile_append_of_eq_self {Content : Type} {drops : Content → Bool}
    {front : List Content} (kept : front.rdropWhile drops = front) (behind : List Content) :
    (front ++ behind).rdropWhile drops = front ++ behind.rdropWhile drops := by
  simp only [List.rdropWhile, List.reverse_append] at kept ⊢
  rw [List.dropWhile_append]
  split
  · rename_i isEmpty
    rw [kept, List.isEmpty_iff.mp isEmpty, List.reverse_nil, List.append_nil]
  · rw [List.reverse_append, List.reverse_reverse]

theorem rdropWhile_append_cons {Content : Type} {drops : Content → Bool} {first : Content}
    (kept : drops first = false) (front behind : List Content) :
    (front ++ first :: behind).rdropWhile drops = front ++ first :: behind.rdropWhile drops := by
  have frontKept : (front ++ [first]).rdropWhile drops = front ++ [first] :=
    List.rdropWhile_concat_neg _ _ _ (by simp [kept])
  have trimmed := rdropWhile_append_of_eq_self frontKept behind
  rwa [List.append_assoc, List.append_assoc] at trimmed

theorem trimEdges_append_query (text query : List Char) :
    trimEdges (text ++ '?' :: query) =
      text.dropWhile isEdgeBlank ++ '?' :: query.rdropWhile isEdgeBlank := by
  have markNotBlank : isEdgeBlank '?' = false := rfl
  have leading : (text ++ '?' :: query).dropWhile isEdgeBlank =
      text.dropWhile isEdgeBlank ++ '?' :: query := by
    rw [List.dropWhile_append]
    split
    · rename_i isEmpty
      rw [List.isEmpty_iff.mp isEmpty]
      simp [markNotBlank]
    · rfl
  rw [trimEdges, leading]
  exact rdropWhile_append_cons markNotBlank _ query

theorem splitScheme?_of_not_mem {text : List Char} (noColon : ':' ∉ text) :
    splitScheme? text = none := by
  rw [splitScheme?, List.dropWhile_eq_nil_iff.mpr (ne_mark noColon)]

theorem splitScheme?_append_colon {before : List Char} (noColon : ':' ∉ before)
    (behind : List Char) :
    splitScheme? (before ++ ':' :: behind) =
      if isScheme (withoutIgnored before) then some (lowerCase (withoutIgnored before), behind)
      else none := by
  rw [splitScheme?, List.dropWhile_append_of_pos (ne_mark noColon),
    List.takeWhile_append_of_pos (ne_mark noColon)]
  simp

section Scheme

variable {text : List Char}

theorem splitScheme?_append_of_mem (hasColon : ':' ∈ text) (rest : List Char) :
    splitScheme? (text ++ rest) =
      (splitScheme? text).map fun (scheme, behind) => (scheme, behind ++ rest) := by
  rcases List.eq_append_cons_of_mem hasColon with ⟨before, behind, rfl, notBefore⟩
  rw [List.append_assoc, List.cons_append, splitScheme?_append_colon notBefore,
    splitScheme?_append_colon notBefore]
  split <;> rfl

theorem splitScheme?_append {rest : List Char} (noColon : ':' ∉ rest) (text : List Char) :
    splitScheme? (text ++ rest) =
      (splitScheme? text).map fun (scheme, behind) => (scheme, behind ++ rest) := by
  by_cases hasColon : ':' ∈ text
  · exact splitScheme?_append_of_mem hasColon rest
  · rw [splitScheme?_of_not_mem hasColon, splitScheme?_of_not_mem (by simp [hasColon, noColon])]
    rfl

theorem mem_colon_of_splitScheme? {scheme behind : List Char}
    (isSplit : splitScheme? text = some (scheme, behind)) : ':' ∈ text := by
  apply Classical.byContradiction
  intro noColon
  rw [splitScheme?_of_not_mem noColon] at isSplit
  cases isSplit

theorem mem_of_splitScheme? {scheme behind : List Char}
    (isSplit : splitScheme? text = some (scheme, behind)) {character : Char}
    (member : character ∈ behind) : character ∈ text := by
  rcases List.eq_append_cons_of_mem (mem_colon_of_splitScheme? isSplit) with
    ⟨before, rest, rfl, notBefore⟩
  rw [splitScheme?_append_colon notBefore, Option.ite_none_right_eq_some] at isSplit
  cases isSplit.2
  simp [member]

end Scheme

/-- What counts of a text behind the question mark: the query in it, and the fragment. -/
def queryIn (text : List Char) : List Char :=
  withoutIgnored (splitAtMark '#' (text.rdropWhile isEdgeBlank)).1

def fragmentIn (text : List Char) : Option (List Char) :=
  ((splitAtMark '#' (text.rdropWhile isEdgeBlank)).2).map withoutIgnored

theorem splitTail_append {front : List Char} (noQuestion : '?' ∉ front) (noHash : '#' ∉ front)
    (text : List Char) :
    splitTail (front ++ '?' :: text.rdropWhile isEdgeBlank) =
      ⟨front, some (queryIn text), fragmentIn text⟩ := by
  have noHashYet : '#' ∉ front ++ ['?'] := by simp [noHash]
  have split := splitAtMark_append_of_not_mem noHashYet (text.rdropWhile isEdgeBlank)
  simp only [List.append_assoc, List.singleton_append] at split
  simp only [splitTail, split, splitAtMark_append noQuestion]
  rfl

/-! A query without characters that have a meaning of their own is kept as it is, and it
does not make a text a URL that is none without it. -/

def IsPlainQuery (query : List Char) : Prop :=
  ∀ character ∈ query, character ≠ ':' ∧ character ≠ '#' ∧ isEdgeBlank character = false

theorem isEdgeBlank_of_isIgnored {character : Char} (ignored : isIgnored character = true) :
    isEdgeBlank character = true := by
  simp only [isIgnored, Bool.or_eq_true, beq_iff_eq] at ignored
  rcases ignored with (rfl | rfl) | rfl <;> rfl

theorem rdropWhile_of_not_isEdgeBlank {text : List Char}
    (noBlank : ∀ character ∈ text, isEdgeBlank character = false) :
    text.rdropWhile isEdgeBlank = text := by
  rw [List.rdropWhile_eq_self_iff]
  intro nonempty isBlank
  exact Bool.false_ne_true ((noBlank _ (List.getLast_mem nonempty)).symm.trans isBlank)

theorem withoutIgnored_of_not_isEdgeBlank {text : List Char}
    (noBlank : ∀ character ∈ text, isEdgeBlank character = false) :
    withoutIgnored text = text := by
  refine List.filter_eq_self.mpr fun character member => ?_
  have notIgnored : isIgnored character = false := by
    refine Bool.eq_false_iff.mpr fun ignored => ?_
    exact Bool.false_ne_true ((noBlank character member).symm.trans
      (isEdgeBlank_of_isIgnored ignored))
  rw [notIgnored]
  rfl

section Plain

variable {query : List Char} (plain : IsPlainQuery query)

include plain

theorem rdropWhile_of_isPlainQuery : query.rdropWhile isEdgeBlank = query :=
  rdropWhile_of_not_isEdgeBlank fun character member => (plain character member).2.2

theorem splitAtMark_of_isPlainQuery : splitAtMark '#' query = (query, none) :=
  splitAtMark_of_not_mem fun member => (plain '#' member).2.1 rfl

theorem withoutIgnored_of_isPlainQuery : withoutIgnored query = query :=
  withoutIgnored_of_not_isEdgeBlank fun character member => (plain character member).2.2

theorem queryIn_of_isPlainQuery : queryIn query = query := by
  rw [queryIn, rdropWhile_of_isPlainQuery plain, splitAtMark_of_isPlainQuery plain,
    withoutIgnored_of_isPlainQuery plain]

theorem fragmentIn_of_isPlainQuery : fragmentIn query = none := by
  rw [fragmentIn, rdropWhile_of_isPlainQuery plain, splitAtMark_of_isPlainQuery plain]
  rfl

theorem queryIn_append (text : List Char) : queryIn (query ++ text) = query ++ queryIn text := by
  have trimmed : (query ++ text).rdropWhile isEdgeBlank = query ++ text.rdropWhile isEdgeBlank :=
    rdropWhile_append_of_eq_self (rdropWhile_of_isPlainQuery plain) text
  have noHash : '#' ∉ query := fun member => (plain '#' member).2.1 rfl
  rw [queryIn, trimmed, splitAtMark_append_of_not_mem noHash, withoutIgnored, List.filter_append]
  exact congrArg (· ++ queryIn text) (withoutIgnored_of_isPlainQuery plain)

end Plain

/-! What counts of a query is a part of it, and all of it if nothing is left out. -/

theorem fst_splitAtMark_sublist (mark : Char) (text : List Char) :
    (splitAtMark mark text).1.Sublist text := by
  rw [splitAtMark]
  split
  · exact List.Sublist.refl text
  · exact List.takeWhile_sublist _

theorem rdropWhile_sublist (blank : Char → Bool) (text : List Char) :
    (text.rdropWhile blank).Sublist text :=
  List.IsPrefix.sublist <| List.rdropWhile_prefix blank text

theorem queryIn_sublist (text : List Char) : (queryIn text).Sublist text :=
  List.filter_sublist.trans
    ((fst_splitAtMark_sublist _ _).trans (rdropWhile_sublist _ _))

theorem fst_splitAtMark_eq_self_iff {mark : Char} {text : List Char} :
    (splitAtMark mark text).1 = text ↔ mark ∉ text := by
  constructor
  · intro same hasMark
    rcases List.eq_append_cons_of_mem hasMark with ⟨before, behind, rfl, notBefore⟩
    rw [splitAtMark_append notBefore] at same
    have length := congrArg List.length same
    simp at length
  · intro noMark
    rw [splitAtMark_of_not_mem noMark]

theorem queryIn_eq_self_iff {text : List Char} :
    queryIn text = text ↔ '#' ∉ text ∧ (∀ character ∈ text, isIgnored character = false) ∧
      ∀ last ∈ text.getLast?, isEdgeBlank last = false := by
  have trimmed_iff : text.rdropWhile isEdgeBlank = text ↔
      ∀ last ∈ text.getLast?, isEdgeBlank last = false := by
    rw [List.rdropWhile_eq_self_iff]
    cases text using List.reverseRecOn with
    | nil => simp
    | append_singleton front last => simp
  have kept_iff : withoutIgnored text = text ↔
      ∀ character ∈ text, isIgnored character = false := by
    simp [withoutIgnored, List.filter_eq_self]
  rw [← trimmed_iff, ← kept_iff, ← fst_splitAtMark_eq_self_iff]
  constructor
  · intro same
    have kept : (withoutIgnored (splitAtMark '#' (text.rdropWhile isEdgeBlank)).1).Sublist
        (splitAtMark '#' (text.rdropWhile isEdgeBlank)).1 := List.filter_sublist
    have split := fst_splitAtMark_sublist '#' (text.rdropWhile isEdgeBlank)
    have trimmed := rdropWhile_sublist isEdgeBlank text
    have length : (withoutIgnored (splitAtMark '#' (text.rdropWhile isEdgeBlank)).1).length =
        text.length := congrArg List.length same
    have isTrimmed := trimmed.eq_of_length_le (length.ge.trans (kept.trans split).length_le)
    rw [isTrimmed] at kept split length
    have isSplit := split.eq_of_length_le (length.ge.trans kept.length_le)
    rw [isSplit] at kept length
    exact ⟨isSplit, kept.eq_of_length_le length.ge, isTrimmed⟩
  · rintro ⟨isSplit, isKept, isTrimmed⟩
    rw [queryIn, isTrimmed, isSplit, isKept]

section Queries

variable [NameMapping] {text : List Char}

/-- If a scheme is found in front of a text, what is behind its question mark only has its
say in the query and the fragment. -/
theorem parse_append_of_splitScheme? (noQuestion : '?' ∉ text) (noHash : '#' ∉ text)
    {scheme behind : List Char}
    (isSplit : splitScheme? (text.dropWhile isEdgeBlank) = some (scheme, behind))
    (query : List Char) :
    parse (text ++ '?' :: query) =
      (readAs scheme (.asking behind [])).map (saying (queryIn query) (fragmentIn query)) := by
  have inText : ∀ {character}, character ∈ behind → character ∈ text := fun member =>
    (List.dropWhile_suffix _).subset (mem_of_splitScheme? isSplit member)
  have isSplitStill : splitScheme? (trimEdges (text ++ '?' :: query)) =
      some (scheme, behind ++ '?' :: query.rdropWhile isEdgeBlank) := by
    rw [trimEdges_append_query,
      splitScheme?_append_of_mem (mem_colon_of_splitScheme? isSplit), isSplit]
    rfl
  rw [parse_of_splitScheme? isSplitStill,
    splitTail_append (fun member => noQuestion (inText member))
      (fun member => noHash (inText member)),
    readAs_saying]

theorem parse_append_eq_ok {page : Url} (noQuestion : '?' ∉ text) (noHash : '#' ∉ text)
    (isPage : parse (text ++ ['?']) = .ok page) (query : List Char) :
    parse (text ++ '?' :: query) = .ok (page.saying (queryIn query) (fragmentIn query)) := by
  cases isSplit : splitScheme? (text.dropWhile isEdgeBlank) with
  | none =>
      have noScheme : splitScheme? (trimEdges (text ++ ['?'])) = none := by
        rw [trimEdges_append_query, splitScheme?_append (by simp), isSplit]
        rfl
      simp only [parse, noScheme] at isPage
      cases isPage
  | some split =>
      rw [parse_append_of_splitScheme? noQuestion noHash isSplit] at isPage ⊢
      cases isRead : readAs split.1 (.asking split.2 []) with
      | error fault =>
          rw [isRead] at isPage
          cases isPage
      | ok url =>
          rw [isRead] at isPage
          cases isPage
          rfl

/-- The URL in front of a plain query, or the fault in it, is the same for all of them. -/
theorem parse_append_query {query : List Char} (noQuestion : '?' ∉ text)
    (noHash : '#' ∉ text) (plain : IsPlainQuery query) :
    parse (text ++ '?' :: query) = (parse (text ++ ['?'])).map (asking query) := by
  have plainEmpty : IsPlainQuery [] := nofun
  cases isSplit : splitScheme? (text.dropWhile isEdgeBlank) with
  | none =>
      have noScheme : ∀ {query}, IsPlainQuery query →
          parse (text ++ '?' :: query) = .error .relativeWithoutBase := by
        intro query plain
        have noColon : ':' ∉ '?' :: query := by
          have notInQuery : ':' ∉ query := fun member => (plain ':' member).1 rfl
          simp [notInQuery]
        rw [parse, trimEdges_append_query, rdropWhile_of_isPlainQuery plain,
          splitScheme?_append noColon, isSplit]
        rfl
      rw [noScheme plain, noScheme plainEmpty]
      rfl
  | some split =>
      rw [parse_append_of_splitScheme? noQuestion noHash isSplit,
        parse_append_of_splitScheme? noQuestion noHash isSplit, queryIn_of_isPlainQuery plain,
        fragmentIn_of_isPlainQuery plain]
      cases readAs split.1 (.asking split.2 []) <;> rfl

end Queries

end MetricWatch.Url
