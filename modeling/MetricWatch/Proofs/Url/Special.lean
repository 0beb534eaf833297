import MetricWatch.Proofs.Url.Port
import MetricWatch.Proofs.Url.Resolve

namespace MetricWatch.Url

/-! What a text behind `://` says when its scheme has rules of its own. -/

/-- The query, the fragment and what is in front of them. Blanks at the end do not count. -/
def tailedIn (text : List Char) : Tailed :=
  splitTail (text.rdropWhile isEdgeBlank)

def frontIn (text : List Char) : List Char :=
  withoutIgnored (tailedIn text).front

def upToSlash (text : List Char) : List Char :=
  text.takeWhile fun character => !isSlash character

def fromSlash (text : List Char) : List Char :=
  text.dropWhile fun character => !isSlash character

/-- All slashes in front of the authority are one. -/
def authorityIn (text : List Char) : List Char :=
  upToSlash ((frontIn text).dropWhile isSlash)

def pathIn (text : List Char) : List Char :=
  fromSlash ((frontIn text).dropWhile isSlash)

/-! Nothing is split at characters that are no marks. -/

section Plain

variable {front : List Char} (noQuestion : '?' ∉ front) (noHash : '#' ∉ front)

include noQuestion noHash

theorem splitTail_append_of_plain (text : List Char) :
    splitTail (front ++ text) =
      ⟨front ++ (splitTail text).front, (splitTail text).query, (splitTail text).fragment⟩ := by
  simp only [splitTail, splitAtMark_append_of_not_mem noHash,
    splitAtMark_append_of_not_mem noQuestion]

theorem tailedIn_append {text : List Char}
    (kept : (front ++ text).rdropWhile isEdgeBlank = front ++ text.rdropWhile isEdgeBlank) :
    tailedIn (front ++ text) =
      ⟨front ++ (tailedIn text).front, (tailedIn text).query, (tailedIn text).fragment⟩ := by
  rw [tailedIn, kept, splitTail_append_of_plain noQuestion noHash]
  rfl

theorem frontIn_append {text : List Char}
    (kept : (front ++ text).rdropWhile isEdgeBlank = front ++ text.rdropWhile isEdgeBlank) :
    frontIn (front ++ text) = withoutIgnored front ++ frontIn text := by
  rw [frontIn, tailedIn_append noQuestion noHash kept, withoutIgnored, List.filter_append]
  rfl

end Plain

/-! The scheme is a word in front of the mark. -/

section Scheme

variable {word : List Char} (noBlank : ∀ character ∈ word, isEdgeBlank character = false)

include noBlank

theorem trimEdges_word (text : List Char) :
    trimEdges (word ++ ':' :: '/' :: '/' :: text) =
      word ++ ':' :: '/' :: '/' :: text.rdropWhile isEdgeBlank := by
  have leading : (word ++ ':' :: '/' :: '/' :: text).dropWhile isEdgeBlank =
      word ++ ':' :: '/' :: '/' :: text := by
    cases word with
    | nil => rfl
    | cons first word =>
        exact List.dropWhile_cons_of_neg (by simp [noBlank first List.mem_cons_self])
  have trailing := rdropWhile_append_cons (show isEdgeBlank '/' = false from rfl)
    (word ++ [':', '/']) text
  simp only [List.append_assoc, List.cons_append, List.nil_append] at trailing
  rw [trimEdges, leading]
  exact trailing

variable [NameMapping] (noColon : ':' ∉ word)

include noColon

theorem parse_word (text : List Char) :
    parse (word ++ ':' :: '/' :: '/' :: text) =
      if isScheme word then readAs (lowerCase word) (tailedIn ('/' :: '/' :: text))
      else .error .relativeWithoutBase := by
  have trimmed := trimEdges_word noBlank text
  have kept := withoutIgnored_of_not_isEdgeBlank noBlank
  have tailed : tailedIn ('/' :: '/' :: text) =
      splitTail ('/' :: '/' :: text.rdropWhile isEdgeBlank) :=
    congrArg splitTail
      (rdropWhile_append_cons (show isEdgeBlank '/' = false from rfl) ['/'] text)
  have split := splitScheme?_append_colon noColon ('/' :: '/' :: text.rdropWhile isEdgeBlank)
  rw [kept, ← trimmed] at split
  cases isWord : isScheme word with
  | false => simp only [parse, split, isWord, Bool.false_eq_true, if_false]
  | true =>
      rw [isWord, if_pos rfl] at split
      rw [parse_of_splitScheme? split, if_pos rfl, tailed]

theorem scheme_of_parse_word {text : List Char} {url : Url}
    (isUrl : parse (word ++ ':' :: '/' :: '/' :: text) = .ok url) :
    isScheme word = true ∧ url.scheme = lowerCase word := by
  rw [parse_word noBlank noColon] at isUrl
  split at isUrl
  · rename_i isWord
    exact ⟨isWord, scheme_of_readAs isUrl⟩
  · cases isUrl

end Scheme

theorem isSlash_of_mem_upToSlash {text : List Char} {character : Char}
    (member : character ∈ upToSlash text) : isSlash character = false := by
  simpa using List.mem_takeWhile_imp member

/-- The URL of an authority, with the path, the query and the fragment that a text names. -/
def webUrl (scheme text : List Char) (authority : Authority) : Url :=
  assemble scheme (some authority) (.segments (readPath .special (pathIn text))) (tailedIn text)

section Web

variable [NameMapping] {scheme : List Char} (isSpecial : schemeKind scheme = .special)

include isSpecial

theorem readAs_eq_ok_iff {text : List Char} {url : Url} :
    readAs scheme (tailedIn ('/' :: '/' :: text)) = .ok url ↔
      ∃ authority, readAuthority scheme (authorityIn text) true = .ok ⟨authority, []⟩ ∧
        webUrl scheme text authority = url := by
  have tailed : tailedIn ('/' :: '/' :: text) =
      ⟨'/' :: '/' :: (tailedIn text).front, (tailedIn text).query, (tailedIn text).fragment⟩ :=
    @tailedIn_append ['/', '/'] (by decide) (by decide) text
      (rdropWhile_append_cons (show isEdgeBlank '/' = false from rfl) ['/'] text)
  have front : (withoutIgnored ('/' :: '/' :: (tailedIn text).front)).dropWhile isSlash =
      (frontIn text).dropWhile isSlash := rfl
  have noSlash : '\\' ∉ authorityIn text := fun member => by
    cases isSlash_of_mem_upToSlash member
  have ends : (fun character => !separatesSegments .special character) =
      fun character => !isSlash character := rfl
  simp only [readAs, isSpecial, readSpecial, afterSlashes, tailed, front, ends, bind_eq_ok_iff,
    readAuthority_of_special isSpecial]
  constructor
  · rintro ⟨⟨authority, remaining⟩, isRead, isUrl⟩
    change readHostAndPort scheme (userOf (authorityIn text)) (hostText (authorityIn text)) =
      .ok ⟨authority, remaining⟩ at isRead
    have nothing : remaining = [] := by
      rw [← readAuthority_of_special isSpecial _ true] at isRead
      exact remaining_of_readAuthority isSpecial noSlash isRead
    subst nothing
    exact ⟨authority, isRead, Except.ok.inj isUrl⟩
  · rintro ⟨authority, isRead, isUrl⟩
    exact ⟨⟨authority, []⟩, isRead, congrArg Except.ok isUrl⟩

end Web

/-! What the parts of a text are, one behind the other. -/

/-- A text that no path, query or fragment begins in, and of which nothing is left out. -/
structure IsPlainText (text : List Char) : Prop where
  noQuestion : '?' ∉ text
  noHash : '#' ∉ text
  noSlash : ∀ character ∈ text, isSlash character = false
  noBlank : ∀ character ∈ text, isEdgeBlank character = false

theorem frontIn_append_of_isPlainText {text : List Char} (plain : IsPlainText text)
    (behind : List Char) : frontIn (text ++ behind) = text ++ frontIn behind := by
  have kept := rdropWhile_append_of_eq_self (rdropWhile_of_not_isEdgeBlank plain.noBlank) behind
  rw [frontIn_append plain.noQuestion plain.noHash kept,
    withoutIgnored_of_not_isEdgeBlank plain.noBlank]

/-- What the authority begins with where a host is expected. -/
def authorityFront (host : List Char) : List Char :=
  (withoutIgnored host).dropWhile isSlash

theorem isSlash_of_isEdgeBlank {character : Char} (isBlank : isEdgeBlank character = true) :
    isSlash character = false := by
  refine Bool.eq_false_iff.mpr fun isSlash => ?_
  simp only [Url.isSlash, Bool.or_eq_true, beq_iff_eq] at isSlash
  rcases isSlash with rfl | rfl <;> cases isBlank

theorem authorityFront_append {blanks : List Char}
    (areBlank : ∀ character ∈ blanks, isEdgeBlank character = true) (host : List Char) :
    authorityFront (host ++ blanks) = authorityFront host ++ withoutIgnored blanks := by
  have noSlash : (withoutIgnored blanks).dropWhile isSlash = withoutIgnored blanks := by
    cases isKept : withoutIgnored blanks with
    | nil => rfl
    | cons first others =>
        have member : first ∈ blanks := by
          refine List.mem_of_mem_filter (?_ : first ∈ withoutIgnored blanks)
          rw [isKept]
          exact List.mem_cons_self
        exact List.dropWhile_cons_of_neg (by simp [isSlash_of_isEdgeBlank (areBlank first member)])
  rw [authorityFront, withoutIgnored, List.filter_append, List.dropWhile_append]
  split
  · rename_i isEmpty
    rw [authorityFront, withoutIgnored, List.isEmpty_iff.mp isEmpty]
    exact noSlash
  · rfl

/-- A text behind a host that belongs to the authority, up to its end. -/
structure StandsBehind (host portText behind : List Char) : Prop where
  noQuestion : '?' ∉ host
  noHash : '#' ∉ host
  noSlash : ∀ character ∈ authorityFront host, isSlash character = false
  plain : IsPlainText portText
  nonempty : authorityFront host ++ portText = [] → behind = []
  kept : (host ++ (portText ++ behind)).rdropWhile isEdgeBlank =
    host ++ (portText ++ behind).rdropWhile isEdgeBlank

namespace StandsBehind

variable {host portText behind : List Char} (stands : StandsBehind host portText behind)

include stands

theorem frontIn : (frontIn (host ++ (portText ++ behind))).dropWhile isSlash =
    authorityFront host ++ (portText ++ frontIn behind) := by
  have nonempty := stands.nonempty
  rw [frontIn_append stands.noQuestion stands.noHash stands.kept,
    frontIn_append_of_isPlainText stands.plain, List.dropWhile_append]
  split
  · rename_i isEmpty
    have isNil : authorityFront host = [] := List.isEmpty_iff.mp isEmpty
    rw [isNil, List.nil_append] at nonempty ⊢
    cases portText with
    | nil =>
        rw [nonempty rfl]
        rfl
    | cons first portText =>
        exact List.dropWhile_cons_of_neg (by simp [stands.plain.noSlash first List.mem_cons_self])
  · rfl

theorem ends : ∀ character ∈ authorityFront host ++ portText, (!isSlash character) = true := by
  intro character member
  rcases List.mem_append.mp member with inFront | inPort
  · simp [stands.noSlash character inFront]
  · simp [stands.plain.noSlash character inPort]

theorem authorityIn : authorityIn (host ++ (portText ++ behind)) =
    authorityFront host ++ portText ++ upToSlash (Url.frontIn behind) := by
  rw [Url.authorityIn, stands.frontIn, ← List.append_assoc, upToSlash,
    List.takeWhile_append_of_pos stands.ends, upToSlash]

theorem pathIn : pathIn (host ++ (portText ++ behind)) = fromSlash (Url.frontIn behind) := by
  rw [Url.pathIn, stands.frontIn, ← List.append_assoc, fromSlash,
    List.dropWhile_append_of_pos stands.ends, fromSlash]

theorem webUrl (scheme : List Char) (authority : Authority) :
    webUrl scheme (host ++ (portText ++ behind)) authority =
      assemble scheme (some authority)
        (.segments (readPath .special (fromSlash (Url.frontIn behind)))) (tailedIn behind) := by
  have keptBehind := rdropWhile_append_of_eq_self
    (rdropWhile_of_not_isEdgeBlank stands.plain.noBlank) behind
  rw [Url.webUrl, stands.pathIn, tailedIn_append stands.noQuestion stands.noHash stands.kept,
    tailedIn_append stands.plain.noQuestion stands.plain.noHash keptBehind]
  rfl

end StandsBehind

/-! A port that is written behind the end of the authority has no say in it. -/

theorem frontIn_cons_mark {mark : Char} (isMark : mark = '?' ∨ mark = '#') (text : List Char) :
    frontIn (mark :: text) = [] := by
  have notBlank : isEdgeBlank mark = false := by rcases isMark with rfl | rfl <;> rfl
  have kept := rdropWhile_append_cons notBlank [] text
  rw [List.nil_append] at kept
  rw [frontIn, tailedIn, kept, List.nil_append]
  rcases isMark with rfl | rfl
  · have split := @splitAtMark_append_of_not_mem '#' ['?'] (by decide)
      (text.rdropWhile isEdgeBlank)
    simp only [List.singleton_append] at split
    simp only [splitTail, split]
    rfl
  · rfl

theorem exists_first_mark {host : List Char} (hasMark : '?' ∈ host ∨ '#' ∈ host) :
    ∃ before mark after, host = before ++ mark :: after ∧ (mark = '?' ∨ mark = '#') ∧
      '?' ∉ before ∧ '#' ∉ before := by
  by_cases hasQuestion : '?' ∈ host
  · rcases List.eq_append_cons_of_mem hasQuestion with ⟨before, after, rfl, noQuestion⟩
    by_cases hasHash : '#' ∈ before
    · rcases List.eq_append_cons_of_mem hasHash with ⟨first, between, rfl, noHash⟩
      rw [List.mem_append, not_or] at noQuestion
      exact ⟨first, '#', between ++ '?' :: after, by simp, .inr rfl, noQuestion.1, noHash⟩
    · exact ⟨before, '?', after, rfl, .inl rfl, noQuestion, hasHash⟩
  · rcases List.eq_append_cons_of_mem (hasMark.resolve_left hasQuestion) with
      ⟨before, after, rfl, noHash⟩
    rw [List.mem_append, not_or] at hasQuestion
    exact ⟨before, '#', after, rfl, .inr rfl, hasQuestion.1, noHash⟩

theorem authorityIn_of_mark {host : List Char} (hasMark : '?' ∈ host ∨ '#' ∈ host)
    (text : List Char) : authorityIn (host ++ text) = authorityIn host := by
  rcases exists_first_mark hasMark with ⟨before, mark, after, rfl, isMark, noQuestion, noHash⟩
  have notBlank : isEdgeBlank mark = false := by rcases isMark with rfl | rfl <;> rfl
  have front : ∀ text, frontIn (before ++ mark :: text) = withoutIgnored before := by
    intro text
    have kept := rdropWhile_append_cons notBlank [] text
    have keptBehind := rdropWhile_append_cons notBlank before text
    rw [List.nil_append] at kept
    rw [frontIn_append noQuestion noHash (by rw [kept, keptBehind]; rfl),
      frontIn_cons_mark isMark, List.append_nil]
  rw [List.append_assoc, List.cons_append, authorityIn, front, authorityIn, front]

theorem authorityIn_of_slash {host : List Char} (noQuestion : '?' ∉ host) (noHash : '#' ∉ host)
    {slash : Char} (member : slash ∈ authorityFront host) (isSlash : isSlash slash = true)
    (text : List Char) : authorityIn (host ++ ':' :: text) = upToSlash (authorityFront host) := by
  have kept := rdropWhile_append_cons (show isEdgeBlank ':' = false from rfl) [] text
  have keptBehind := rdropWhile_append_cons (show isEdgeBlank ':' = false from rfl) host text
  rw [List.nil_append] at kept
  have notAll : ((authorityFront host).takeWhile fun character => !Url.isSlash character).length ≠
      (authorityFront host).length := by
    intro same
    have all := List.takeWhile_eq_self_iff.mp
      ((List.takeWhile_prefix _).eq_of_length same) slash member
    simp [isSlash] at all
  rw [authorityIn, frontIn_append noQuestion noHash (by rw [kept, keptBehind]; rfl),
    List.dropWhile_append]
  split
  · rename_i isEmpty
    rw [authorityFront, List.isEmpty_iff.mp isEmpty] at member
    cases member
  · exact (List.takeWhile_append).trans (if_neg notAll)

end MetricWatch.Url
