import MetricWatch.Proofs.Number.Whole
import MetricWatch.Proofs.Outcome
import MetricWatch.Proofs.Url.Parse

namespace MetricWatch.Url

/-! Where a URL names its port: behind the host and in front of anything else. -/

/-- The port as a URL shows it, which is not at all if its scheme means the same. -/
def shownPort (scheme : List Char) (port : Nat) : Option Nat :=
  if defaultPort? scheme = some port then none else some port

/-- The same URL, but for the port. -/
def withPort (url : Url) (port : Nat) : Url :=
  { url with authority := url.authority.map fun authority =>
      { authority with port := shownPort url.scheme port } }

theorem shownPort_of_lt {port : Nat} (small : port < 21) (scheme : List Char) :
    shownPort scheme port = some port := by
  refine if_neg fun isDefault => ?_
  simp only [defaultPort?] at isDefault
  split at isDefault
  · cases isDefault
    exact absurd small (by decide)
  · split at isDefault
    · cases isDefault
      exact absurd small (by decide)
    · split at isDefault
      · cases isDefault
        exact absurd small (by decide)
      · cases isDefault

/-! The last `@` ends what is said about the user. -/

def hostText (text : List Char) : List Char :=
  (splitUserInfo text).2

def userOf (text : List Char) : List Char × List Char :=
  match (splitUserInfo text).1 with
  | none => ([], [])
  | some userInfo => readUserInfo userInfo

theorem splitUserInfo_of_not_mem {text : List Char} (noMark : '@' ∉ text) :
    splitUserInfo text = (none, text) := by
  rw [splitUserInfo, if_neg (by simpa using noMark)]

theorem splitUserInfo_append_mark {host : List Char} (noMark : '@' ∉ host) (user : List Char) :
    splitUserInfo (user ++ '@' :: host) = (some user, host) := by
  have notMark : ∀ character ∈ host.reverse, (character != '@') = true :=
    fun character member => ne_mark noMark character (List.mem_reverse.mp member)
  have behind : ((user ++ '@' :: host).reverse.takeWhile (· != '@')).reverse = host := by
    rw [List.reverse_append, List.reverse_cons, List.append_assoc,
      List.takeWhile_append_of_pos notMark]
    simp
  rw [splitUserInfo, if_pos (by simp)]
  have length : (user ++ '@' :: host).length - host.length - 1 = user.length := by
    simp only [List.length_append, List.length_cons]
    omega
  simp only [behind, length, List.take_left]

theorem mem_of_mem_hostText {text : List Char} {character : Char}
    (member : character ∈ hostText text) : character ∈ text := by
  simp only [hostText, splitUserInfo] at member
  split at member
  · exact List.mem_reverse.mp ((List.takeWhile_prefix _).subset (List.mem_reverse.mp member))
  · exact member

theorem exists_last_mark {text : List Char} (hasMark : '@' ∈ text) :
    ∃ user host, text = user ++ '@' :: host ∧ '@' ∉ host := by
  rcases List.eq_append_cons_of_mem (List.mem_reverse.mpr hasMark) with
    ⟨behind, before, parted, noMark⟩
  refine ⟨before.reverse, behind.reverse, ?_, by simpa using noMark⟩
  rw [← List.reverse_reverse text, parted]
  simp

section Behind

variable {behind : List Char} (front : List Char)

theorem splitUserInfo_append (noMark : '@' ∉ behind) :
    splitUserInfo (front ++ behind) = ((splitUserInfo front).1, hostText front ++ behind) := by
  rw [hostText]
  by_cases hasMark : '@' ∈ front
  · rcases exists_last_mark hasMark with ⟨user, host, rfl, noMarkYet⟩
    have nowhere : '@' ∉ host ++ behind := by simp [noMarkYet, noMark]
    rw [List.append_assoc, List.cons_append, splitUserInfo_append_mark nowhere,
      splitUserInfo_append_mark noMarkYet]
  · have nowhere : '@' ∉ front ++ behind := by simp [hasMark, noMark]
    rw [splitUserInfo_of_not_mem nowhere, splitUserInfo_of_not_mem hasMark]

theorem hostText_append (noMark : '@' ∉ behind) :
    hostText (front ++ behind) = hostText front ++ behind :=
  congrArg Prod.snd (splitUserInfo_append front noMark)

theorem userOf_append (noMark : '@' ∉ behind) : userOf (front ++ behind) = userOf front := by
  rw [userOf, splitUserInfo_append front noMark]
  rfl

theorem hostText_append_of_mem (hasMark : '@' ∈ behind) :
    hostText (front ++ behind) = hostText behind := by
  rcases exists_last_mark hasMark with ⟨user, host, rfl, noMark⟩
  rw [← List.append_assoc, hostText, hostText, splitUserInfo_append_mark noMark,
    splitUserInfo_append_mark noMark]

end Behind

/-! A colon in brackets does not end the host. -/

def bracketsBehind (inBrackets : Bool) (character : Char) : Bool :=
  if character = '[' then true else if character = ']' then false else inBrackets

def leavesOpen (text : List Char) : Bool :=
  text.foldl bracketsBehind false

theorem splitHost_append {front : List Char} (noColon : ':' ∉ front) (inBrackets : Bool)
    (behind : List Char) :
    splitHost inBrackets (front ++ behind) =
      (front ++ (splitHost (front.foldl bracketsBehind inBrackets) behind).1,
        (splitHost (front.foldl bracketsBehind inBrackets) behind).2) := by
  induction front generalizing inBrackets with
  | nil => rfl
  | cons character front induction =>
      rw [List.mem_cons, not_or] at noColon
      have notColon : ¬ (character = ':' ∧ (!inBrackets) = true) :=
        fun isColon => noColon.1 isColon.1.symm
      rw [List.cons_append, splitHost, if_neg notColon]
      simp only [induction noColon.2]
      rfl

theorem splitHost_inside {front : List Char} (noBracket : ']' ∉ front) (behind : List Char) :
    splitHost true (front ++ behind) =
      (front ++ (splitHost true behind).1, (splitHost true behind).2) := by
  induction front with
  | nil => rfl
  | cons character front induction =>
      rw [List.mem_cons, not_or] at noBracket
      have inside : (if character = '[' then true else if character = ']' then false else true) =
          true := by
        rw [if_neg (Ne.symm noBracket.1), ite_self]
      rw [List.cons_append, splitHost, if_neg (by simp)]
      simp only [inside, induction noBracket.2]
      rfl

theorem splitHost_closed {host : List Char} (noColon : ':' ∉ host)
    (closed : leavesOpen host = false) (behind : List Char) :
    splitHost false (host ++ ':' :: behind) = (host, ':' :: behind) := by
  rw [splitHost_append noColon, ← leavesOpen, closed]
  simp [splitHost]

theorem splitHost_of_not_mem {host : List Char} (noColon : ':' ∉ host) :
    splitHost false host = (host, []) := by
  have parted := splitHost_append noColon false []
  simpa [splitHost] using parted

theorem leavesOpen_of_not_mem {text : List Char} (noBracket : '[' ∉ text) :
    leavesOpen text = false := by
  rw [leavesOpen]
  induction text with
  | nil => rfl
  | cons character text induction =>
      rw [List.mem_cons, not_or] at noBracket
      have outside : bracketsBehind false character = false := by
        rw [bracketsBehind, if_neg (Ne.symm noBracket.1), ite_self]
      rw [List.foldl_cons, outside]
      exact induction noBracket.2

/-- What is behind the host begins with a colon, if there is anything. -/
theorem exists_host (inBrackets : Bool) (text : List Char) :
    ∃ portText, (splitHost inBrackets text).2 = portText ∧ portText <:+ text ∧
      (portText = [] ∨ ∃ behind, portText = ':' :: behind) := by
  induction text generalizing inBrackets with
  | nil => exact ⟨[], rfl, List.suffix_refl [], .inl rfl⟩
  | cons character rest induction =>
      rw [splitHost]
      split
      · rename_i isColon
        exact ⟨_, rfl, List.suffix_refl _, .inr ⟨rest, by rw [isColon.1]⟩⟩
      · rcases induction (bracketsBehind inBrackets character) with ⟨_, rfl, isSuffix, first⟩
        exact ⟨_, rfl, isSuffix.trans (List.suffix_cons character rest), first⟩

/-! The digits of a port. -/

theorem isAsciiDigit_of_mem {port : Nat} {digit : Char} (member : digit ∈ decimalDigits port) :
    isAsciiDigit digit = true :=
  isDecimalDigit_of_mem member

theorem not_mem_decimalDigits {mark : Char} (notDigit : isAsciiDigit mark = false) (port : Nat) :
    mark ∉ decimalDigits port :=
  fun member => Bool.false_ne_true (notDigit.symm.trans (isAsciiDigit_of_mem member))

theorem takeWhile_decimalDigits (port : Nat) (behind : List Char) :
    (decimalDigits port ++ behind).takeWhile isAsciiDigit =
      decimalDigits port ++ behind.takeWhile isAsciiDigit :=
  List.takeWhile_append_of_pos fun _ => isAsciiDigit_of_mem

theorem dropWhile_decimalDigits (port : Nat) (behind : List Char) :
    (decimalDigits port ++ behind).dropWhile isAsciiDigit = behind.dropWhile isAsciiDigit :=
  List.dropWhile_append_of_pos fun _ => isAsciiDigit_of_mem

theorem readPort_decimalDigits (scheme : List Char) {port : Nat} (bounded : port ≤ 0xFFFF) :
    readPort scheme (decimalDigits port) = .ok (shownPort scheme port) := by
  have nonempty : (decimalDigits port).isEmpty = false := by
    simp [decimalDigits, List.isEmpty_eq_false_iff, Nat.toDigits_ne_nil]
  simp only [readPort, digitsValue_decimalDigits, nonempty, Bool.false_or, decide_eq_true_eq,
    shownPort, if_neg (Nat.not_lt.mpr bounded)]
  split <;> rfl

theorem splitPort_decimalDigits (scheme : List Char) {port : Nat} (bounded : port ≤ 0xFFFF) :
    splitPort scheme (':' :: decimalDigits port) = .ok (shownPort scheme port, []) := by
  have taken := takeWhile_decimalDigits port []
  have left := dropWhile_decimalDigits port []
  rw [List.append_nil] at taken left
  simp only [splitPort, taken, left, List.takeWhile_nil, List.append_nil, List.dropWhile_nil,
    readPort_decimalDigits scheme bounded]
  rfl

theorem le_foldl_digits (value : Nat) (digits : List Char) :
    value ≤ digits.foldl (fun value digit => 10 * value + digitValue digit) value := by
  induction digits generalizing value with
  | nil => exact Nat.le_refl value
  | cons digit digits induction =>
      refine Nat.le_trans ?_ (induction (10 * value + digitValue digit))
      omega

/-- No more digits can stand behind a port, whatever it is. -/
theorem eq_nil_of_digitsValue {digits : List Char}
    (value : digitsValue (decimalDigits 1 ++ digits) = 1) : digits = [] := by
  cases digits with
  | nil => rfl
  | cons digit digits =>
      have least := le_foldl_digits (10 * 1 + digitValue digit) digits
      have same : digits.foldl (fun value digit => 10 * value + digitValue digit)
          (10 * 1 + digitValue digit) = 1 := value
      omega

theorem digitsValue_of_readPort {scheme digits : List Char} {port : Nat}
    (isPort : readPort scheme digits = .ok (some port)) : digitsValue digits = port := by
  simp only [readPort] at isPort
  split at isPort
  · cases isPort
  · split at isPort
    · cases isPort
    · cases isPort
      rfl

theorem eq_nil_of_splitPort {scheme behind remaining : List Char} (noSlash : '\\' ∉ behind)
    (isPort : splitPort scheme (':' :: (decimalDigits 1 ++ behind)) = .ok (some 1, remaining)) :
    behind = [] := by
  simp only [splitPort, takeWhile_decimalDigits, dropWhile_decimalDigits] at isPort
  have parted := List.takeWhile_append_dropWhile (p := isAsciiDigit) (l := behind)
  cases left : behind.dropWhile isAsciiDigit with
  | nil =>
      simp only [left] at isPort
      rcases map_eq_ok_iff.mp isPort with ⟨port, isRead, same⟩
      cases same
      rw [left, eq_nil_of_digitsValue (digitsValue_of_readPort isRead)] at parted
      exact parted.symm
  | cons character rest =>
      have member : character ∈ behind := by
        rw [← parted, left]
        simp
      have notSlash : character ≠ '\\' := fun same => noSlash (same ▸ member)
      simp only [left] at isPort
      split at isPort
      · rename_i isNil
        cases isNil
      · rename_i isSlash
        exact absurd (List.cons.inj isSlash).1 notSlash
      · cases isPort

theorem remaining_of_splitPort {scheme portText remaining : List Char} {port : Option Nat}
    (noSlash : '\\' ∉ portText) (first : portText = [] ∨ ∃ behind, portText = ':' :: behind)
    (isPort : splitPort scheme portText = .ok (port, remaining)) : remaining = [] := by
  rcases first with rfl | ⟨behind, rfl⟩
  · cases isPort
    rfl
  · simp only [splitPort] at isPort
    split at isPort
    · rename_i isNil
      rcases map_eq_ok_iff.mp isPort with ⟨_, _, same⟩
      cases same
      exact isNil
    · rename_i isSlash
      have member : '\\' ∈ behind := by
        refine (List.dropWhile_suffix isAsciiDigit).subset ?_
        rw [isSlash]
        exact List.mem_cons_self
      exact absurd (List.mem_cons_of_mem ':' member) noSlash
    · cases isPort

/-! An authority whose scheme has rules of its own. -/

section Special

variable [NameMapping] {scheme : List Char} (isSpecial : schemeKind scheme = .special)

theorem ne_empty_of_readHost {text : List Char} {host : Host}
    (isHost : readHost .special text = .ok host) : host ≠ .empty := by
  rintro rfl
  simp only [readHost, SchemeKind.isSpecial, if_true] at isHost
  split at isHost
  · cases isHost
  · simp only [Host.parse] at isHost
    split at isHost
    · rcases bind_eq_ok_iff.mp isHost with ⟨_, _, isAddress⟩
      rcases bind_eq_ok_iff.mp isAddress with ⟨_, _, isAddress⟩
      cases isAddress
    · simp only [Host.parseName] at isHost
      split at isHost
      · cases isHost
      · split at isHost
        · cases isHost
        · split at isHost
          · rcases map_eq_ok_iff.mp isHost with ⟨_, _, isAddress⟩
            cases isAddress
          · cases isHost

include isSpecial

theorem readHostAndPort_eq_ok_iff {user : List Char × List Char} {text : List Char}
    {read : AuthorityRead} :
    readHostAndPort scheme user text = .ok read ↔
      readHost .special (splitHost false text).1 = .ok read.authority.host ∧
        splitPort scheme (splitHost false text).2 = .ok (read.authority.port, read.remaining) ∧
        (read.authority.userName, read.authority.password) = user := by
  rcases read with ⟨⟨userName, password, host, port⟩, remaining⟩
  simp only [readHostAndPort, isSpecial]
  cases isHost : readHost .special (splitHost false text).1 with
  | error fault => simp [bind, Except.bind]
  | ok found =>
      have notEmpty := ne_empty_of_readHost isHost
      cases splitPort scheme (splitHost false text).2 with
      | error fault => simp [bind, Except.bind, notEmpty]
      | ok ported =>
          simp only [bind, Except.bind, pure, Except.pure, notEmpty, false_and, if_false]
          constructor
          · intro same
            cases same
            exact ⟨rfl, rfl, rfl⟩
          · rintro ⟨sameHost, samePort, sameUser⟩
            cases sameHost
            cases samePort
            cases sameUser
            rfl

theorem readAuthority_of_special (text : List Char) (isLast : Bool) :
    readAuthority scheme text isLast = readHostAndPort scheme (userOf text) (hostText text) := by
  have nowhere : readHostAndPort scheme ([], []) [] = .error .emptyHost := by
    simp only [readHostAndPort, isSpecial]
    rfl
  simp only [readAuthority, userOf, hostText]
  split
  · rename_i parted
    simp only [parted]
    split
    · rfl
    · exact nowhere.symm
  · rename_i parted
    simp only [parted]
  · rename_i parted
    simp only [parted]

theorem user_of_readAuthority {front behind : List Char} (noMark : '@' ∉ behind) {isLast : Bool}
    {read : AuthorityRead} (isRead : readAuthority scheme (front ++ behind) isLast = .ok read) :
    (read.authority.userName, read.authority.password) = userOf front := by
  rw [readAuthority_of_special isSpecial, userOf_append front noMark] at isRead
  exact ((readHostAndPort_eq_ok_iff isSpecial).mp isRead).2.2

theorem host_of_readAuthority {front portText : List Char} (noColon : ':' ∉ hostText front)
    (closed : leavesOpen (hostText front) = false) (noMark : '@' ∉ portText)
    (first : portText = [] ∨ ∃ behind, portText = ':' :: behind) {isLast : Bool}
    {read : AuthorityRead} (isRead : readAuthority scheme (front ++ portText) isLast = .ok read) :
    readHost .special (hostText front) = .ok read.authority.host := by
  rw [readAuthority_of_special isSpecial, hostText_append front noMark] at isRead
  have isHost := ((readHostAndPort_eq_ok_iff isSpecial).mp isRead).1
  rcases first with rfl | ⟨behind, rfl⟩
  · rwa [List.append_nil, splitHost_of_not_mem noColon] at isHost
  · rwa [splitHost_closed noColon closed] at isHost

theorem remaining_of_readAuthority {text : List Char} (noSlash : '\\' ∉ text) {isLast : Bool}
    {read : AuthorityRead} (isRead : readAuthority scheme text isLast = .ok read) :
    read.remaining = [] := by
  rw [readAuthority_of_special isSpecial] at isRead
  have isPort := ((readHostAndPort_eq_ok_iff isSpecial).mp isRead).2.1
  rcases exists_host false (hostText text) with ⟨portText, isBehind, isSuffix, first⟩
  rw [isBehind] at isPort
  have noSlashBehind := fun member => noSlash (mem_of_mem_hostText (isSuffix.subset member))
  exact remaining_of_splitPort noSlashBehind first isPort

/-- A port behind an authority that names none yet. -/
theorem readAuthority_port {front : List Char} (noColon : ':' ∉ hostText front)
    (closed : leavesOpen (hostText front) = false) {host : Host}
    (isHost : readHost .special (hostText front) = .ok host) {port : Nat}
    (bounded : port ≤ 0xFFFF) (isLast : Bool) :
    readAuthority scheme (front ++ ':' :: decimalDigits port) isLast =
      .ok ⟨⟨(userOf front).1, (userOf front).2, host, shownPort scheme port⟩, []⟩ := by
  have noMark : '@' ∉ ':' :: decimalDigits port := by
    simpa using not_mem_decimalDigits rfl port
  rw [readAuthority_of_special isSpecial, hostText_append front noMark, userOf_append front noMark,
    readHostAndPort_eq_ok_iff isSpecial, splitHost_closed noColon closed]
  exact ⟨isHost, splitPort_decimalDigits scheme bounded, rfl⟩

end Special

/-! A port that is read whatever it is has the host in front of it, and nothing else of the
authority behind it. -/

section Reads

variable [NameMapping] {scheme front behind : List Char} {authority : Authority} {isLast : Bool}

/-- The ports below are no defaults of any scheme. -/
def ReadsPorts (scheme front behind : List Char) (authority : Authority) (isLast : Bool) : Prop :=
  ∀ port, port < 21 → ∃ remaining,
    readAuthority scheme (front ++ ':' :: (decimalDigits port ++ behind)) isLast =
      .ok ⟨{ authority with port := some port }, remaining⟩

namespace ReadsPorts

variable (reads : ReadsPorts scheme front behind authority isLast)
  (isSpecial : schemeKind scheme = .special)

include reads isSpecial

theorem splitPort {port : Nat} (small : port < 21) :
    ∃ remaining, splitPort scheme (splitHost false
      (hostText (front ++ ':' :: (decimalDigits port ++ behind)))).2 =
        .ok (some port, remaining) := by
  rcases reads port small with ⟨remaining, isRead⟩
  rw [readAuthority_of_special isSpecial, readHostAndPort_eq_ok_iff isSpecial] at isRead
  exact ⟨remaining, isRead.2.1⟩

theorem not_same (portText : List Char)
    (same : ∀ port, (splitHost false
      (hostText (front ++ ':' :: (decimalDigits port ++ behind)))).2 = portText) : False := by
  -- One text does not name two ports.
  rcases reads.splitPort isSpecial (show 1 < 21 by decide) with ⟨_, one⟩
  rcases reads.splitPort isSpecial (show 2 < 21 by decide) with ⟨_, two⟩
  rw [same] at one two
  cases one.symm.trans two

theorem noMark : '@' ∉ behind := by
  intro hasMark
  -- The last `@` would be behind the port, which then is a part of the password.
  refine reads.not_same isSpecial (splitHost false (hostText behind)).2 fun port => ?_
  have parted : front ++ ':' :: (decimalDigits port ++ behind) =
      (front ++ ':' :: decimalDigits port) ++ behind := by simp
  rw [parted, hostText_append_of_mem _ hasMark]

theorem hostText (port : Nat) :
    hostText (front ++ ':' :: (decimalDigits port ++ behind)) =
      Url.hostText front ++ ':' :: (decimalDigits port ++ behind) := by
  have noMarkYet := not_mem_decimalDigits (show isAsciiDigit '@' = false from rfl) port
  exact hostText_append front (by simp [reads.noMark isSpecial, noMarkYet])

theorem closed (noColon : ':' ∉ Url.hostText front) : leavesOpen (Url.hostText front) = false := by
  refine Bool.eq_false_iff.mpr fun isOpen => ?_
  -- In an open bracket the colon of the port does not end the host.
  refine reads.not_same isSpecial (splitHost true behind).2 fun port => ?_
  have noBracket : ']' ∉ ':' :: decimalDigits port := by
    simpa using not_mem_decimalDigits rfl port
  have parted : ':' :: (decimalDigits port ++ behind) = ':' :: decimalDigits port ++ behind := rfl
  rw [reads.hostText isSpecial, splitHost_append noColon, ← leavesOpen, isOpen, parted,
    splitHost_inside noBracket]

theorem host (noColon : ':' ∉ Url.hostText front) (noSlash : '\\' ∉ behind) :
    readHost .special (Url.hostText front) = .ok authority.host ∧ behind = [] := by
  rcases reads 1 (by decide) with ⟨remaining, isRead⟩
  rw [readAuthority_of_special isSpecial, reads.hostText isSpecial,
    readHostAndPort_eq_ok_iff isSpecial,
    splitHost_closed noColon (reads.closed isSpecial noColon)] at isRead
  exact ⟨isRead.1, eq_nil_of_splitPort noSlash isRead.2.1⟩

end ReadsPorts

end Reads

end MetricWatch.Url
