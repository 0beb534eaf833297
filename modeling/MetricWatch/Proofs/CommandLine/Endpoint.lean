import MetricWatch.CommandLine.Settings
import MetricWatch.Proofs.Query.ProxiedRoute
import MetricWatch.Proofs.Url.Special

namespace MetricWatch.CommandLine

open Url

/-! The port of an endpoint, given apart from it. The endpoint is not read as a URL for that:
the port is put behind what looks like its host. Where that is the host of the URL, nothing but
the port is changed, and nowhere else. -/

namespace EndpointParts

/-- The parts are told apart by their first characters. -/
structure Apart (parts : EndpointParts) : Prop where
  isWord : ∀ character ∈ parts.word, isWordCharacter character = true
  hasWord : parts.word ≠ []
  isHost : ∀ character ∈ parts.host, endsHost character = false
  hasHost : parts.host ≠ []
  isRest : ∀ first ∈ parts.rest.head?, endsHost first = true

def text (parts : EndpointParts) : List Char :=
  parts.word ++ ':' :: '/' :: '/' :: (parts.host ++ parts.rest)

theorem not_isWordCharacter_colon : isWordCharacter ':' = false := by
  decide +kernel

theorem apart_of_ofText? {endpoint : List Char} {parts : EndpointParts}
    (isParts : ofText? endpoint = some parts) : parts.Apart ∧ parts.text = endpoint := by
  simp only [ofText?] at isParts
  split at isParts
  · cases isParts
  · rename_i complete
    simp only [Bool.or_eq_true, not_or, Bool.not_eq_true', List.isEmpty_iff,
      Bool.not_eq_false] at complete
    cases isParts
    have hasMark := List.prefix_iff_eq_append.mp (List.isPrefixOf_iff_prefix.mp complete.1.2)
    constructor
    · constructor
      case isWord => exact fun _ => List.mem_takeWhile_imp
      case hasWord => exact complete.1.1
      case isHost => exact fun _ member => by simpa using List.mem_takeWhile_imp member
      case hasHost => exact complete.2
      case isRest =>
        intro first isFirst
        have ends := List.head?_dropWhile_not (fun character => !endsHost character)
          ((endpoint.dropWhile isWordCharacter).drop schemeMark.length)
        rw [Option.mem_def.mp isFirst] at ends
        simpa using ends
    · have parted := @List.takeWhile_append_dropWhile _ isWordCharacter endpoint
      rw [← hasMark] at parted
      simp only [text, List.takeWhile_append_dropWhile]
      exact parted

/-- The first character that is not of the word tells the parts apart. -/
theorem ofText?_word {word : List Char}
    (isWord : ∀ character ∈ word, isWordCharacter character = true) (hasWord : word ≠ [])
    (behind : List Char) :
    ofText? (word ++ ':' :: '/' :: '/' :: behind) =
      if (behind.takeWhile fun character => !endsHost character).isEmpty then none
      else some ⟨word, behind.takeWhile fun character => !endsHost character,
        behind.dropWhile fun character => !endsHost character⟩ := by
  have isFront : (word ++ ':' :: '/' :: '/' :: behind).takeWhile isWordCharacter = word := by
    rw [List.takeWhile_append_of_pos isWord,
      List.takeWhile_cons_of_neg (by simp [not_isWordCharacter_colon]), List.append_nil]
  have afterWord : (word ++ ':' :: '/' :: '/' :: behind).dropWhile isWordCharacter =
      ':' :: '/' :: '/' :: behind := by
    rw [List.dropWhile_append_of_pos isWord,
      List.dropWhile_cons_of_neg (by simp [not_isWordCharacter_colon])]
  have isMark : schemeMark = [':', '/', '/'] := by decide
  simp [ofText?, isFront, afterWord, isMark, hasWord]

theorem ofText?_text {parts : EndpointParts} (apart : parts.Apart) :
    ofText? parts.text = some parts := by
  have isHost : ∀ character ∈ parts.host, (!endsHost character) = true := by
    simpa using apart.isHost
  have ends : parts.rest.takeWhile (fun character => !endsHost character) = [] ∧
      parts.rest.dropWhile (fun character => !endsHost character) = parts.rest := by
    cases isRest : parts.rest with
    | nil => exact ⟨rfl, rfl⟩
    | cons first rest =>
        have ends := apart.isRest first (by rw [isRest]; rfl)
        exact ⟨List.takeWhile_cons_of_neg (by simp [ends]),
          List.dropWhile_cons_of_neg (by simp [ends])⟩
  simp [text, ofText?_word apart.isWord apart.hasWord, List.takeWhile_append_of_pos isHost,
    List.dropWhile_append_of_pos isHost, ends, apart.hasHost]

theorem replacePort_of_ofText? {endpoint : List Char} {parts : EndpointParts}
    (isParts : ofText? endpoint = some parts) (port : Nat) :
    replacePort endpoint port = parts.word ++ ':' :: '/' :: '/' ::
      (parts.host ++ (':' :: decimalDigits port ++ withoutPort parts.rest)) := by
  have isMark : schemeMark = [':', '/', '/'] := by decide
  simp [replacePort, isParts, withPort, isMark]

/-! Words and digits hold no characters that mean anything in a URL. -/

theorem le_of_inRanges {code first last : Nat} {ranges : List (Nat × Nat)}
    (isIn : inRanges code ((first, last) :: ranges) = true) : first ≤ code := by
  by_contra below
  rw [inRanges, if_pos (Nat.lt_of_not_le below)] at isIn
  cases isIn

theorem isEdgeBlank_of_le_toNat {character : Char} (above : 0x30 ≤ character.toNat) :
    isEdgeBlank character = false :=
  decide_eq_false (by omega)

theorem noBlank_word {parts : EndpointParts} (apart : parts.Apart) :
    ∀ character ∈ parts.word, isEdgeBlank character = false := fun character member =>
  isEdgeBlank_of_le_toNat (le_of_inRanges (apart.isWord character member))

theorem noColon_word {parts : EndpointParts} (apart : parts.Apart) : ':' ∉ parts.word :=
  fun member => Bool.false_ne_true (not_isWordCharacter_colon.symm.trans (apart.isWord ':' member))

theorem isDigitOfAnyScript_of_isAsciiDigit {character : Char}
    (isDigit : isAsciiDigit character = true) : isDigitOfAnyScript character = true := by
  simp only [isAsciiDigit, Bool.and_eq_true, decide_eq_true_eq, Char.le_def,
    UInt32.le_iff_toNat_le] at isDigit
  have above : 0x30 ≤ character.toNat := isDigit.1
  have below : character.toNat ≤ 0x39 := isDigit.2
  rw [isDigitOfAnyScript, digitRanges, inRanges, if_neg (Nat.not_lt.mpr above),
    decide_eq_true below, Bool.true_or]

/-- A colon with digits behind it, or nothing. -/
def IsPortText (text : List Char) : Prop :=
  text = [] ∨ ∃ digits, text = ':' :: digits ∧ ∀ digit ∈ digits, isDigitOfAnyScript digit = true

namespace IsPortText

variable {text : List Char} (isPort : IsPortText text)

include isPort

theorem not_mem {mark : Char} (notColon : mark ≠ ':')
    (notDigit : isDigitOfAnyScript mark = false) : mark ∉ text := by
  rcases isPort with rfl | ⟨digits, rfl, areDigits⟩
  · exact List.not_mem_nil
  · intro member
    rcases List.mem_cons.mp member with isColon | isDigit
    · exact notColon isColon
    · exact Bool.false_ne_true (notDigit.symm.trans (areDigits mark isDigit))

theorem noMark : '@' ∉ text :=
  isPort.not_mem (by decide) (by decide +kernel)

theorem plain : IsPlainText text where
  noQuestion := isPort.not_mem (by decide) (by decide +kernel)
  noHash := isPort.not_mem (by decide) (by decide +kernel)
  noSlash character member := by
    refine Bool.eq_false_iff.mpr fun isSlash => ?_
    simp only [Url.isSlash, Bool.or_eq_true, beq_iff_eq] at isSlash
    rcases isSlash with rfl | rfl
    · exact isPort.not_mem (by decide) (by decide +kernel) member
    · exact isPort.not_mem (by decide) (by decide +kernel) member
  noBlank := by
    rcases isPort with rfl | ⟨digits, rfl, areDigits⟩
    · intro character member
      cases member
    · refine List.forall_mem_cons.mpr ⟨rfl, fun digit member => ?_⟩
      exact isEdgeBlank_of_le_toNat (le_of_inRanges (areDigits digit member))

theorem first : text = [] ∨ ∃ behind, text = ':' :: behind :=
  isPort.imp_right fun ⟨digits, isText, _⟩ => ⟨digits, isText⟩

end IsPortText

theorem isPortText_of_isAsciiDigit {digits : List Char}
    (areDigits : ∀ digit ∈ digits, isAsciiDigit digit = true) : IsPortText (':' :: digits) :=
  .inr ⟨digits, rfl, fun digit member =>
    isDigitOfAnyScript_of_isAsciiDigit (areDigits digit member)⟩

/-- The port that is left out of what stands behind the host. -/
theorem exists_port (rest : List Char) :
    ∃ portText, rest = portText ++ withoutPort rest ∧ IsPortText portText := by
  simp only [withoutPort]
  split
  · rename_i afterColon
    split
    · exact ⟨[], rfl, .inl rfl⟩
    · have isPrefix := (List.takeWhile_prefix isDigitOfAnyScript).trans
        (List.take_prefix longestPort afterColon)
      refine ⟨':' :: (afterColon.take longestPort).takeWhile isDigitOfAnyScript, ?_,
        .inr ⟨_, rfl, fun _ => List.mem_takeWhile_imp⟩⟩
      exact congrArg (':' :: ·) (List.prefix_iff_eq_append.mp isPrefix).symm
  · exact ⟨[], rfl, .inl rfl⟩

/-- The host of a URL, with the user in front of it, is what the endpoint names in front of
its first slash or colon, and behind the port nothing but the path, the query and the fragment
is left. -/
structure NamesHost [NameMapping] (parts : EndpointParts) (authority : Authority) : Prop where
  noQuestion : '?' ∉ parts.host
  noHash : '#' ∉ parts.host
  noSlash : ∀ character ∈ authorityFront parts.host, isSlash character = false
  closed : leavesOpen (hostText (authorityFront parts.host)) = false
  host : readHost .special (hostText (authorityFront parts.host)) = .ok authority.host
  behind : upToSlash (frontIn (withoutPort parts.rest)) = []

theorem noColon_hostText {parts : EndpointParts} (apart : parts.Apart) :
    ':' ∉ hostText (authorityFront parts.host) := by
  intro member
  have inHost : ':' ∈ parts.host :=
    List.mem_of_mem_filter ((List.dropWhile_suffix _).subset (mem_of_mem_hostText member))
  have ends := apart.isHost ':' inHost
  cases ends

theorem stands_port {parts : EndpointParts} (port : Nat) (noQuestion : '?' ∉ parts.host)
    (noHash : '#' ∉ parts.host)
    (noSlash : ∀ character ∈ authorityFront parts.host, isSlash character = false) :
    StandsBehind parts.host (':' :: decimalDigits port) (withoutPort parts.rest) where
  noQuestion := noQuestion
  noHash := noHash
  noSlash := noSlash
  plain := (isPortText_of_isAsciiDigit fun _ => isAsciiDigit_of_mem).plain
  nonempty isNil := by simp at isNil
  kept := by
    have kept := rdropWhile_append_cons (show isEdgeBlank ':' = false from rfl)
    exact (kept parts.host _).trans (congrArg (parts.host ++ ·) (kept [] _).symm)

theorem NamesHost.authorityFront_ne_nil [NameMapping] {parts : EndpointParts}
    {authority : Authority} (namesHost : parts.NamesHost authority) :
    authorityFront parts.host ≠ [] := by
  intro isNil
  have host := namesHost.host
  rw [isNil] at host
  cases host

/-- The parts of an endpoint that is a URL whose scheme has rules of its own. -/
structure Spells [NameMapping] (parts : EndpointParts) (url : Url) (authority : Authority) :
    Prop where
  apart : parts.Apart
  isUrl : Url.parse parts.text = .ok url
  isSpecial : schemeKind url.scheme = .special
  isAuthority : url.authority = some authority

/-- The endpoint with another port in its text has that port as a URL, and is the same
otherwise. -/
def Takes [NameMapping] (parts : EndpointParts) (url : Url) (port : Nat) : Prop :=
  Url.parse (parts.word ++ ':' :: '/' :: '/' ::
    (parts.host ++ (':' :: decimalDigits port ++ withoutPort parts.rest))) =
      .ok (url.withPort port)

namespace Spells

variable [NameMapping] {parts : EndpointParts} {url : Url} {authority : Authority}
  (spells : parts.Spells url authority)

include spells

theorem parse_iff {text : List Char} {other : Url} :
    Url.parse (parts.word ++ ':' :: '/' :: '/' :: text) = .ok other ↔
      ∃ authority, readAuthority url.scheme (authorityIn text) true = .ok ⟨authority, []⟩ ∧
        webUrl url.scheme text authority = other := by
  have noBlank := noBlank_word spells.apart
  have noColon := noColon_word spells.apart
  have scheme := scheme_of_parse_word noBlank noColon spells.isUrl
  rw [parse_word noBlank noColon, if_pos scheme.1, ← scheme.2]
  exact readAs_eq_ok_iff spells.isSpecial

/-! A port that is always the one of the URL stands where the URL has its own. -/

section Takes

variable (takes : ∀ port, port < 21 → parts.Takes url port)

include takes

theorem readAuthority_of_takes {port : Nat} (small : port < 21) :
    readAuthority url.scheme (authorityIn (parts.host ++
      (':' :: decimalDigits port ++ withoutPort parts.rest))) true =
        .ok ⟨{ authority with port := some port }, []⟩ := by
  rcases spells.parse_iff.mp (takes port small) with ⟨found, isRead, isUrl⟩
  have same : some found = some { authority with port := shownPort url.scheme port } := by
    have authorities := congrArg Url.authority isUrl
    rwa [Url.withPort, spells.isAuthority] at authorities
  rw [isRead, Option.some.inj same, shownPort_of_lt small]

theorem not_fixed (fixed : List Char) : ¬ ∀ port, authorityIn (parts.host ++
    (':' :: decimalDigits port ++ withoutPort parts.rest)) = fixed := by
  intro isFixed
  have one := spells.readAuthority_of_takes takes (show 1 < 21 by decide)
  have two := spells.readAuthority_of_takes takes (show 2 < 21 by decide)
  rw [isFixed] at one two
  cases one.symm.trans two

theorem namesHost_of_takes : parts.NamesHost authority := by
  -- Behind a mark or a slash the port does not belong to the authority, which then is the same
  -- for all ports.
  have noMark : ¬ ('?' ∈ parts.host ∨ '#' ∈ parts.host) := fun hasMark =>
    spells.not_fixed takes (authorityIn parts.host) fun _ => authorityIn_of_mark hasMark _
  rw [not_or] at noMark
  have noSlash : ∀ character ∈ authorityFront parts.host, isSlash character = false := by
    intro character member
    refine Bool.eq_false_iff.mpr fun isSlash => ?_
    exact spells.not_fixed takes _ fun _ =>
      authorityIn_of_slash noMark.1 noMark.2 member isSlash _
  have reads : ReadsPorts url.scheme (authorityFront parts.host)
      (upToSlash (frontIn (withoutPort parts.rest))) authority true := by
    intro port small
    have isRead := spells.readAuthority_of_takes takes small
    rw [(stands_port port noMark.1 noMark.2 noSlash).authorityIn, List.append_assoc] at isRead
    exact ⟨[], isRead⟩
  have noColon := noColon_hostText spells.apart
  have noSlashBehind : '\\' ∉ upToSlash (frontIn (withoutPort parts.rest)) := fun member => by
    cases isSlash_of_mem_upToSlash member
  have host := reads.host spells.isSpecial noColon noSlashBehind
  exact ⟨noMark.1, noMark.2, noSlash, reads.closed spells.isSpecial noColon, host.1, host.2⟩

end Takes

/-! Where the URL has its own port, the other one takes its place. -/

/-- The URL, read from the front and the rest of what the endpoint says. -/
structure IsReadFrom (parts : EndpointParts) (url : Url) (authority : Authority) : Prop where
  user : (authority.userName, authority.password) = userOf (authorityFront parts.host)
  url : assemble url.scheme (some authority)
    (.segments (readPath .special (fromSlash (frontIn (withoutPort parts.rest)))))
    (tailedIn (withoutPort parts.rest)) = url

theorem readAuthority : readAuthority url.scheme (authorityIn (parts.host ++ parts.rest)) true =
      .ok ⟨authority, []⟩ ∧ webUrl url.scheme (parts.host ++ parts.rest) authority = url := by
  rcases spells.parse_iff.mp spells.isUrl with ⟨found, isRead, isUrl⟩
  have same : some found = some authority :=
    (congrArg Url.authority isUrl).trans spells.isAuthority
  cases same
  exact ⟨isRead, isUrl⟩

section NamesHost

variable (namesHost : parts.NamesHost authority)

include namesHost

theorem isReadFrom_of_stands {host portText : List Char}
    (stands : StandsBehind host portText (withoutPort parts.rest)) (noMark : '@' ∉ portText)
    (user : userOf (authorityFront parts.host) = userOf (authorityFront host))
    (same : tailedIn (parts.host ++ parts.rest) =
      tailedIn (host ++ (portText ++ withoutPort parts.rest))) :
    IsReadFrom parts url authority := by
  have isRead := spells.readAuthority
  have sameAuthority : authorityIn (parts.host ++ parts.rest) =
      authorityIn (host ++ (portText ++ withoutPort parts.rest)) := by
    rw [authorityIn, frontIn, same, authorityIn, frontIn]
  have sameUrl : webUrl url.scheme (parts.host ++ parts.rest) authority =
      webUrl url.scheme (host ++ (portText ++ withoutPort parts.rest)) authority := by
    rw [webUrl, pathIn, frontIn, same, webUrl, pathIn, frontIn]
  rw [sameAuthority, sameUrl, stands.authorityIn, namesHost.behind, List.append_nil,
    stands.webUrl] at isRead
  refine ⟨?_, isRead.2⟩
  rw [user]
  exact user_of_readAuthority spells.isSpecial noMark isRead.1

/-- Blanks behind the host are left out where the endpoint ends with it. -/
theorem isReadFrom_of_nil (isNil : parts.rest = []) : IsReadFrom parts url authority := by
  have nothing : withoutPort parts.rest = [] := by
    rw [isNil]
    rfl
  have trimmed := List.rdropWhile_idempotent isEdgeBlank parts.host
  have isFront := List.rdropWhile_prefix isEdgeBlank (l := parts.host)
  have front := @authorityFront_append (parts.host.rtakeWhile isEdgeBlank)
    (fun _ => List.mem_rtakeWhile_imp) (parts.host.rdropWhile isEdgeBlank)
  rw [List.rdropWhile_append_rtakeWhile] at front
  have noMark : '@' ∉ withoutIgnored (parts.host.rtakeWhile isEdgeBlank) := fun member => by
    cases List.mem_rtakeWhile_imp (List.mem_of_mem_filter member)
  have user : userOf (authorityFront parts.host) =
      userOf (authorityFront (parts.host.rdropWhile isEdgeBlank)) := by
    rw [front]
    exact userOf_append _ noMark
  have stands : StandsBehind (parts.host.rdropWhile isEdgeBlank) [] (withoutPort parts.rest) := {
    noQuestion := fun member => namesHost.noQuestion (isFront.subset member)
    noHash := fun member => namesHost.noHash (isFront.subset member)
    noSlash := fun character member => by
      refine namesHost.noSlash character ?_
      rw [front]
      exact List.mem_append_left _ member
    plain := IsPortText.plain (.inl rfl)
    nonempty := fun _ => nothing
    kept := by
      rw [nothing, List.append_nil, List.append_nil]
      exact trimmed.trans (List.append_nil _).symm }
  have same : tailedIn (parts.host ++ parts.rest) =
      tailedIn (parts.host.rdropWhile isEdgeBlank ++ ([] ++ withoutPort parts.rest)) := by
    rw [nothing, isNil]
    simp only [List.append_nil, tailedIn, trimmed]
  exact spells.isReadFrom_of_stands namesHost stands List.not_mem_nil user same

theorem isReadFrom_of_ne_nil (nonempty : parts.rest ≠ []) : IsReadFrom parts url authority := by
  rcases exists_port parts.rest with ⟨portText, parted, isPort⟩
  have kept : (parts.host ++ parts.rest).rdropWhile isEdgeBlank =
      parts.host ++ parts.rest.rdropWhile isEdgeBlank := by
    rcases List.exists_cons_of_ne_nil nonempty with ⟨first, others, isRest⟩
    have ends := spells.apart.isRest first (by rw [isRest]; rfl)
    have notBlank : isEdgeBlank first = false := by
      simp only [endsHost, Bool.or_eq_true, beq_iff_eq] at ends
      rcases ends with rfl | rfl <;> rfl
    have kept := rdropWhile_append_cons notBlank
    rw [isRest]
    exact (kept parts.host others).trans (congrArg (parts.host ++ ·) (kept [] others).symm)
  refine spells.isReadFrom_of_stands namesHost ?_ isPort.noMark rfl
    (congrArg (fun rest => tailedIn (parts.host ++ rest)) parted)
  exact {
    noQuestion := namesHost.noQuestion
    noHash := namesHost.noHash
    noSlash := namesHost.noSlash
    plain := isPort.plain
    nonempty := fun isNil =>
      absurd (List.append_eq_nil_iff.mp isNil).1 namesHost.authorityFront_ne_nil
    kept := parted ▸ kept }

theorem isReadFrom : IsReadFrom parts url authority := by
  by_cases isNil : parts.rest = []
  · exact spells.isReadFrom_of_nil namesHost isNil
  · exact spells.isReadFrom_of_ne_nil namesHost isNil

end NamesHost

theorem takes (namesHost : parts.NamesHost authority) {port : Nat} (bounded : port ≤ 0xFFFF) :
    parts.Takes url port := by
  have isReadFrom := spells.isReadFrom namesHost
  have stands := stands_port port namesHost.noQuestion namesHost.noHash namesHost.noSlash
  refine spells.parse_iff.mpr ⟨{ authority with port := shownPort url.scheme port }, ?_, ?_⟩
  · rw [stands.authorityIn, namesHost.behind, List.append_nil,
      readAuthority_port spells.isSpecial (noColon_hostText spells.apart) namesHost.closed
        namesHost.host bounded, ← isReadFrom.user]
  · rw [stands.webUrl]
    exact congrArg (fun url : Url => url.withPort port) isReadFrom.url

end Spells

/-! Endpoints as they are usually given. -/

/-- A host without brackets, perhaps with a port, and perhaps with a path behind it. -/
structure IsUsual (parts : EndpointParts) (portText path : List Char) : Prop where
  apart : parts.Apart
  host : IsPlainText parts.host
  noBracket : '[' ∉ parts.host
  rest : parts.rest = portText ++ path
  port : portText = [] ∨ ∃ digits, portText = ':' :: digits ∧ digits ≠ [] ∧
    digits.length ≤ longestPort ∧ ∀ digit ∈ digits, isAsciiDigit digit = true
  path : path = [] ∨ ∃ others, path = '/' :: others

namespace IsUsual

variable {parts : EndpointParts} {portText path : List Char}
  (usual : parts.IsUsual portText path)

include usual

theorem takeWhile_path (count : Nat) : (path.take count).takeWhile isDigitOfAnyScript = [] := by
  rcases usual.path with rfl | ⟨others, rfl⟩
  · rw [List.take_nil, List.takeWhile_nil]
  · cases count with
    | zero => rfl
    | succ count => exact List.takeWhile_cons_of_neg (by decide +kernel)

theorem withoutPort : withoutPort parts.rest = path := by
  rw [usual.rest]
  rcases usual.port with rfl | ⟨digits, rfl, nonempty, short, areDigits⟩
  · rcases usual.path with rfl | ⟨others, rfl⟩ <;> rfl
  · have taken : ((digits ++ path).take longestPort).takeWhile isDigitOfAnyScript = digits := by
      rw [List.take_append, List.take_of_length_le short,
        List.takeWhile_append_of_pos fun digit member =>
          isDigitOfAnyScript_of_isAsciiDigit (areDigits digit member),
        usual.takeWhile_path, List.append_nil]
    simp [CommandLine.withoutPort, taken, nonempty]

theorem authorityFront : authorityFront parts.host = parts.host := by
  rw [Url.authorityFront, withoutIgnored_of_not_isEdgeBlank usual.host.noBlank]
  rcases List.exists_cons_of_ne_nil usual.apart.hasHost with ⟨first, others, isHost⟩
  have notSlash := usual.host.noSlash first (by rw [isHost]; exact List.mem_cons_self)
  rw [isHost]
  exact List.dropWhile_cons_of_neg (by simp [notSlash])

theorem behind : upToSlash (frontIn path) = [] := by
  rcases usual.path with rfl | ⟨others, rfl⟩
  · rfl
  · have kept := rdropWhile_append_cons (show isEdgeBlank '/' = false from rfl) [] others
    have front := @frontIn_append ['/'] (by decide) (by decide) others kept
    rw [List.singleton_append] at front
    rw [front]
    rfl

theorem isPortText : IsPortText portText := by
  rcases usual.port with rfl | ⟨digits, rfl, nonempty, short, areDigits⟩
  · exact .inl rfl
  · exact isPortText_of_isAsciiDigit areDigits

theorem stands : StandsBehind parts.host portText path where
  noQuestion := usual.host.noQuestion
  noHash := usual.host.noHash
  noSlash := by
    rw [usual.authorityFront]
    exact usual.host.noSlash
  plain := usual.isPortText.plain
  nonempty isNil := by
    rw [usual.authorityFront] at isNil
    exact absurd (List.append_eq_nil_iff.mp isNil).1 usual.apart.hasHost
  kept := rdropWhile_append_of_eq_self (rdropWhile_of_not_isEdgeBlank usual.host.noBlank) _

theorem namesHost [NameMapping] {url : Url} {authority : Authority}
    (spells : parts.Spells url authority) : parts.NamesHost authority := by
  have front := usual.authorityFront
  have noColon := noColon_hostText usual.apart
  have closed : leavesOpen (hostText (Url.authorityFront parts.host)) = false := by
    rw [front]
    exact leavesOpen_of_not_mem fun member => usual.noBracket (mem_of_mem_hostText member)
  have isRead := spells.readAuthority.1
  rw [usual.rest, usual.stands.authorityIn, usual.behind, List.append_nil] at isRead
  exact {
    noQuestion := usual.host.noQuestion
    noHash := usual.host.noHash
    noSlash := usual.stands.noSlash
    closed := closed
    host := host_of_readAuthority spells.isSpecial noColon closed usual.isPortText.noMark
      usual.isPortText.first isRead
    behind := by
      rw [usual.withoutPort]
      exact usual.behind }

end IsUsual

end EndpointParts

/-! The port of the settings. -/

namespace Settings

/-- The origin is the endpoint at the port that is given apart from it, whatever it is. -/
def ChangesOnlyPort [NameMapping] (settings : Settings) (url : Url) : Prop :=
  ∀ port : UInt16, Url.parse { settings with port := some port }.origin.toList =
    .ok (url.withPort port.toNat)

theorem origin_of_port (settings : Settings) (port : UInt16) :
    { settings with port := some port }.origin.toList =
      replacePort settings.endpoint.toList port.toNat := by
  simp only [origin, String.toList_ofList]

section Names

variable [NameMapping] {settings : Settings} {url : Url}

theorem changesOnlyPort_iff {parts : EndpointParts}
    (isParts : EndpointParts.ofText? settings.endpoint.toList = some parts) :
    settings.ChangesOnlyPort url ↔ ∀ port, port ≤ 0xFFFF → parts.Takes url port := by
  simp only [ChangesOnlyPort, origin_of_port, EndpointParts.replacePort_of_ofText? isParts]
  constructor
  · intro changes port bounded
    have changed := changes (UInt16.ofNat port)
    rwa [UInt16.toNat_ofNat_of_lt' (Nat.lt_succ_of_le bounded)] at changed
  · intro takes port
    exact takes port.toNat (Nat.le_of_lt_succ port.toNat_lt)

theorem not_changesOnlyPort_of_ofText? (hasAuthority : url.authority.isSome)
    (isNone : EndpointParts.ofText? settings.endpoint.toList = none) :
    ¬ settings.ChangesOnlyPort url := by
  intro changes
  -- The endpoint stays as it is, so it would be at two ports at once.
  have kept : ∀ port, replacePort settings.endpoint.toList port = settings.endpoint.toList := by
    simp only [replacePort, isNone, implies_true]
  rcases Option.isSome_iff_exists.mp hasAuthority with ⟨authority, isAuthority⟩
  have one := changes 1
  have two := changes 2
  rw [origin_of_port, kept] at one two
  have same := congrArg Url.authority (Except.ok.inj (one.symm.trans two))
  rw [Url.withPort, Url.withPort, isAuthority] at same
  have ports := congrArg Authority.port (Option.some.inj same)
  have isOne : shownPort url.scheme 1 = some 1 := shownPort_of_lt (by decide) url.scheme
  have isTwo : shownPort url.scheme 2 = some 2 := shownPort_of_lt (by decide) url.scheme
  cases isOne.symm.trans (ports.trans isTwo)

/-- The port that is given apart takes the place of the port of the URL, and nothing else is
changed, exactly if the endpoint names the host of the URL in front of its first slash or colon
and nothing is left between the port and the path. The usual endpoints are like that. -/
theorem changesOnlyPort_iff_namesHost
    (isUrl : Url.parse settings.endpoint.toList = .ok url)
    (isWeb : Query.isWebScheme url.scheme = true) :
    (settings.ChangesOnlyPort url ↔ ∃ parts authority,
      EndpointParts.ofText? settings.endpoint.toList = some parts ∧
        url.authority = some authority ∧ parts.NamesHost authority) ∧
    ∀ {parts : EndpointParts} {portText path : List Char}, parts.IsUsual portText path →
      parts.text = settings.endpoint.toList → settings.ChangesOnlyPort url := by
  have isSpecial := Query.schemeKind_of_isWebScheme isWeb
  rcases hasPlace_of_parse isUrl isSpecial with ⟨_, hasPlace⟩
  rcases Option.isSome_iff_exists.mp hasPlace.authority with ⟨authority, isAuthority⟩
  have spells : ∀ {parts : EndpointParts}, parts.Apart →
      parts.text = settings.endpoint.toList → parts.Spells url authority :=
    fun apart isText => ⟨apart, isText ▸ isUrl, isSpecial, isAuthority⟩
  constructor
  · constructor
    · intro changes
      cases isParts : EndpointParts.ofText? settings.endpoint.toList with
      | none => exact absurd changes (not_changesOnlyPort_of_ofText? hasPlace.authority isParts)
      | some parts =>
          have ⟨apart, isText⟩ := EndpointParts.apart_of_ofText? isParts
          have takes := (changesOnlyPort_iff isParts).mp changes
          exact ⟨parts, authority, rfl, isAuthority, (spells apart isText).namesHost_of_takes
            fun port small => takes port (by omega)⟩
    · rintro ⟨parts, found, isParts, isFound, namesHost⟩
      cases isAuthority.symm.trans isFound
      have ⟨apart, isText⟩ := EndpointParts.apart_of_ofText? isParts
      exact (changesOnlyPort_iff isParts).mpr fun _ => (spells apart isText).takes namesHost
  · intro parts portText path usual isText
    have spelled := spells usual.apart isText
    have isParts := EndpointParts.ofText?_text usual.apart
    rw [isText] at isParts
    exact (changesOnlyPort_iff isParts).mpr fun _ => spelled.takes (usual.namesHost spelled)

end Names

/-- With a user, a port, a path and a query. -/
theorem changesOnlyPort_beside_user :
    let settings : Settings :=
      { ofGiven .nothing with endpoint := "HTTPS://ops@prom.example:9090/prefix?tenant=a" }
    ∃ url, Url.parse settings.endpoint.toList = .ok url ∧
      Query.isWebScheme url.scheme = true ∧ settings.ChangesOnlyPort url := by
  intro settings
  let parts : EndpointParts :=
    ⟨"HTTPS".toList, "ops@prom.example".toList, ":9090/prefix?tenant=a".toList⟩
  have isWord : parts.word.all isWordCharacter = true := by decide +kernel
  have isHost : (parts.host.all fun character =>
      !endsHost character && !isSlash character && !isEdgeBlank character) = true := by
    decide +kernel
  have areDigits : "9090".toList.all isAsciiDigit = true := by decide +kernel
  simp only [List.all_eq_true, Bool.and_eq_true, Bool.not_eq_true'] at isWord isHost areDigits
  have usual : parts.IsUsual ":9090".toList "/prefix?tenant=a".toList := {
    apart := ⟨isWord, by decide, fun _ member => (isHost _ member).1.1, by decide,
      fun _ isFirst => by cases isFirst; rfl⟩
    host := ⟨by decide, by decide, fun _ member => (isHost _ member).1.2,
      fun _ member => (isHost _ member).2⟩
    noBracket := by decide
    rest := rfl
    port := .inr ⟨"9090".toList, rfl, by decide, by decide, areDigits⟩
    path := .inr ⟨_, rfl⟩ }
  have isUrl : Url.parse settings.endpoint.toList = .ok ⟨"https".toList,
      some ⟨"ops".toList, [], .name "prom.example".toList, some 9090⟩,
      .segments ["prefix".toList], some "tenant=a".toList, none⟩ := by
    decide +kernel
  have isText : parts.text = settings.endpoint.toList := by decide +kernel
  exact ⟨_, isUrl, rfl, (changesOnlyPort_iff_namesHost isUrl rfl).2 usual isText⟩

/-- The first colon of an address in brackets does not end the host, but the port is put in
front of it. -/
theorem not_changesOnlyPort_in_brackets :
    let settings : Settings := { ofGiven .nothing with endpoint := "http://[::1]:9090" }
    ∃ url, Url.parse settings.endpoint.toList = .ok url ∧
      Query.isWebScheme url.scheme = true ∧
      { settings with port := some 9091 }.origin = "http://[:9091::1]:9090" ∧
      Url.parse { settings with port := some 9091 }.origin.toList = .error .invalidIPv6 ∧
      ¬ settings.ChangesOnlyPort url := by
  intro settings
  have isUrl : Url.parse settings.endpoint.toList = .ok ⟨"http".toList,
      some ⟨[], [], .ipv6 [0, 0, 0, 0, 0, 0, 0, 1], some 9090⟩, .segments [[]], none, none⟩ := by
    decide +kernel
  have isOrigin : { settings with port := some 9091 }.origin = "http://[:9091::1]:9090" := by
    decide +kernel
  have isFault : Url.parse { settings with port := some 9091 }.origin.toList =
      .error .invalidIPv6 := by
    rw [isOrigin]
    decide +kernel
  refine ⟨_, isUrl, rfl, isOrigin, isFault, fun changes => ?_⟩
  cases isFault.symm.trans (changes 9091)

end Settings

end MetricWatch.CommandLine
