import MetricWatch.Proofs.CommandLine.Endpoint
import MetricWatch.Proofs.Number.DecimalValue

namespace MetricWatch.CommandLine

/-! Ports that are given one after the other. The later one takes the place of the earlier one,
unless some digits of the endpoint were left over behind the earlier one and now look like a
part of it. -/

/-- A word, the mark and the first character of a host stand at the beginning. -/
def BeginsWithHost (endpoint : List Char) : Prop :=
  ∃ word first others, endpoint = word ++ "://".toList ++ first :: others ∧ word ≠ [] ∧
    (∀ character ∈ word, isWordCharacter character = true) ∧ first ≠ '/' ∧ first ≠ ':'

/-- Behind the host there is a colon and more digits than a port has. -/
def HasOverlongPort (endpoint : List Char) : Prop :=
  ∃ word host digits others,
    endpoint = word ++ "://".toList ++ host ++ ':' :: (digits ++ others) ∧ word ≠ [] ∧
      (∀ character ∈ word, isWordCharacter character = true) ∧ host ≠ [] ∧ '/' ∉ host ∧
        ':' ∉ host ∧ 6 ≤ digits.length ∧ ∀ digit ∈ digits, isDigitOfAnyScript digit = true

/-! What is left out of a text as its port. -/

def BeginsWithDigit (text : List Char) : Prop :=
  ∃ digit others, text = digit :: others ∧ isDigitOfAnyScript digit = true

theorem takeWhile_take_eq_nil_iff {text : List Char} {count : Nat} :
    (text.take count).takeWhile isDigitOfAnyScript = [] ↔ ¬ (BeginsWithDigit text ∧ 0 < count) := by
  cases count with
  | zero => simp
  | succ count =>
      cases text with
      | nil => simp [BeginsWithDigit]
      | cons first others => simp [BeginsWithDigit, List.takeWhile_cons]

/-- A port with less than the most digits goes on where more digits follow. -/
theorem withoutPort_colon_append {digits : List Char} (nonempty : digits ≠ [])
    (short : digits.length ≤ longestPort)
    (areDigits : ∀ digit ∈ digits, isDigitOfAnyScript digit = true) (rest : List Char) :
    withoutPort (':' :: (digits ++ rest)) = rest.drop
      ((rest.take (longestPort - digits.length)).takeWhile isDigitOfAnyScript).length := by
  have taken : ((digits ++ rest).take longestPort).takeWhile isDigitOfAnyScript =
      digits ++ (rest.take (longestPort - digits.length)).takeWhile isDigitOfAnyScript := by
    rw [List.take_append, List.take_of_length_le short, List.takeWhile_append_of_pos areDigits]
  have notEmpty : (digits ++ (rest.take (longestPort - digits.length)).takeWhile
      isDigitOfAnyScript).isEmpty = false := by
    simp [nonempty]
  rw [withoutPort, taken, notEmpty, if_neg Bool.false_ne_true, List.length_append,
    List.drop_length_add_append]

/-- Nothing but the port is left out, unless it has less than the most digits and others follow. -/
theorem withoutPort_colon_append_eq_iff {digits : List Char} (nonempty : digits ≠ [])
    (short : digits.length ≤ longestPort)
    (areDigits : ∀ digit ∈ digits, isDigitOfAnyScript digit = true) {rest : List Char} :
    withoutPort (':' :: (digits ++ rest)) = rest ↔
      ¬ (BeginsWithDigit rest ∧ digits.length < longestPort) := by
  have isPrefix := (List.takeWhile_prefix isDigitOfAnyScript).trans
    (List.take_prefix (longestPort - digits.length) rest)
  rw [withoutPort_colon_append nonempty short areDigits, ← Nat.sub_pos_iff_lt,
    ← takeWhile_take_eq_nil_iff]
  constructor
  · intro kept
    have sameLength := congrArg List.length kept
    have atMost := isPrefix.length_le
    rw [List.length_drop] at sameLength
    apply List.eq_nil_of_length_eq_zero
    omega
  · intro nothing
    rw [nothing]
    rfl

theorem withoutPort_decimalDigits {port : Nat} (bounded : port ≤ 0xFFFF) {rest : List Char} :
    withoutPort (':' :: (decimalDigits port ++ rest)) = rest ↔
      ¬ (BeginsWithDigit rest ∧ port < 10000) := by
  have atMost : (decimalDigits port).length ≤ longestPort :=
    (lt_pow_iff (by decide)).mp (Nat.lt_of_le_of_lt bounded (by decide))
  have isShort : port < 10000 ↔ (decimalDigits port).length < longestPort :=
    (lt_pow_iff (show 0 < 4 by decide)).trans Nat.lt_succ_iff.symm
  have nonempty : decimalDigits port ≠ [] := Nat.toDigits_ne_nil
  have areDigits : ∀ digit ∈ decimalDigits port, isDigitOfAnyScript digit = true :=
    fun _ member =>
      EndpointParts.isDigitOfAnyScript_of_isAsciiDigit (Url.isAsciiDigit_of_mem member)
  rw [withoutPort_colon_append_eq_iff nonempty atMost areDigits, isShort]

/-- A digit is left over exactly if there are more of them than a port has. -/
theorem beginsWithDigit_withoutPort_iff {rest : List Char}
    (isRest : ∀ first ∈ rest.head?, endsHost first = true) :
    BeginsWithDigit (withoutPort rest) ↔
      ∃ digits others, rest = ':' :: (digits ++ others) ∧ longestPort < digits.length ∧
        ∀ digit ∈ digits, isDigitOfAnyScript digit = true := by
  constructor
  · intro begins
    obtain ⟨digit, others, isLeft, isDigit⟩ := begins
    obtain ⟨portText, parted, isPort⟩ := EndpointParts.exists_port rest
    rw [isLeft] at parted
    rcases isPort with rfl | ⟨digits, rfl, areDigits⟩
    · have ends := isRest digit (by rw [parted]; rfl)
      simp only [endsHost, Bool.or_eq_true, beq_iff_eq] at ends
      have noDigits : isDigitOfAnyScript '/' = false ∧ isDigitOfAnyScript ':' = false := by
        decide +kernel
      rcases ends with rfl | rfl
      · exact absurd isDigit (Bool.eq_false_iff.mp noDigits.1)
      · exact absurd isDigit (Bool.eq_false_iff.mp noDigits.2)
    · have isText : rest = ':' :: ((digits ++ [digit]) ++ others) := by
        rw [parted, List.append_assoc]
        rfl
      have allDigits : ∀ character ∈ digits ++ [digit], isDigitOfAnyScript character = true :=
        List.forall_mem_append.mpr ⟨areDigits, List.forall_mem_singleton.mpr isDigit⟩
      refine ⟨digits ++ [digit], others, isText, ?_, allDigits⟩
      -- If it were short enough, the digit would have been left out as well.
      by_contra notLong
      have shorter := congrArg List.length isLeft
      rw [isText, withoutPort_colon_append (by simp) (Nat.not_lt.mp notLong) allDigits,
        List.length_drop, List.length_cons] at shorter
      omega
  · intro overlong
    obtain ⟨digits, others, isText, isLong, areDigits⟩ := overlong
    have split : digits.take longestPort ++ digits[longestPort] ::
        digits.drop (longestPort + 1) = digits := by
      rw [List.getElem_cons_drop, List.take_append_drop]
    rw [← split] at areDigits
    obtain ⟨areFront, areBack⟩ := List.forall_mem_append.mp areDigits
    have isFront : (digits.take longestPort).length = longestPort :=
      List.length_take_of_le (Nat.le_of_lt isLong)
    have nonempty : digits.take longestPort ≠ [] :=
      List.ne_nil_of_length_pos (by rw [isFront]; decide)
    have kept := (@withoutPort_colon_append_eq_iff _ nonempty (Nat.le_of_eq isFront) areFront
      (digits[longestPort] :: (digits.drop (longestPort + 1) ++ others))).mpr fun goesOn =>
        absurd goesOn.2 (Nat.not_lt.mpr (Nat.le_of_eq isFront.symm))
    rw [isText, ← split, List.append_assoc, List.cons_append, kept]
    exact ⟨_, _, rfl, areBack _ List.mem_cons_self⟩

/-! An endpoint at a port is an endpoint with the same host. -/

namespace EndpointParts

theorem beginsWithHost_iff {endpoint : List Char} :
    BeginsWithHost endpoint ↔ ∃ parts, ofText? endpoint = some parts := by
  have isMark : "://".toList = [':', '/', '/'] := rfl
  constructor
  · intro begins
    obtain ⟨word, first, others, isText, nonempty, isWord, notSlash, notColon⟩ := begins
    have isParts := ofText?_word isWord nonempty (first :: others)
    have inHost : endsHost first = false := by simp [endsHost, notSlash, notColon]
    have hasHost : ((first :: others).takeWhile fun character => !endsHost character).isEmpty =
        false := by
      simp [inHost]
    rw [hasHost, if_neg Bool.false_ne_true] at isParts
    rw [isText, isMark, List.append_assoc]
    exact ⟨_, isParts⟩
  · intro hasParts
    obtain ⟨parts, isParts⟩ := hasParts
    obtain ⟨apart, isText⟩ := apart_of_ofText? isParts
    obtain ⟨first, others, isHost⟩ := List.exists_cons_of_ne_nil apart.hasHost
    have inHost := apart.isHost first (by rw [isHost]; exact List.mem_cons_self)
    simp only [endsHost, Bool.or_eq_false_iff, beq_eq_false_iff_ne] at inHost
    refine ⟨parts.word, first, others ++ parts.rest, ?_, apart.hasWord, apart.isWord, inHost⟩
    rw [← isText, text, isHost, isMark, List.append_assoc]
    rfl

variable {endpoint : List Char} {parts : EndpointParts} (isParts : ofText? endpoint = some parts)

include isParts

theorem ofText?_replacePort (port : Nat) :
    ofText? (replacePort endpoint port) =
      some { parts with rest := ':' :: (decimalDigits port ++ withoutPort parts.rest) } := by
  have apart := (apart_of_ofText? isParts).1
  have stillApart : Apart
      { parts with rest := ':' :: (decimalDigits port ++ withoutPort parts.rest) } := {
    isWord := apart.isWord
    hasWord := apart.hasWord
    isHost := apart.isHost
    hasHost := apart.hasHost
    isRest := fun first isFirst => by
      cases isFirst
      rfl }
  rw [replacePort_of_ofText? isParts]
  exact ofText?_text stillApart

theorem hasOverlongPort_iff :
    HasOverlongPort endpoint ↔ BeginsWithDigit (withoutPort parts.rest) := by
  have isMark : "://".toList = [':', '/', '/'] := rfl
  obtain ⟨apart, isText⟩ := apart_of_ofText? isParts
  rw [beginsWithDigit_withoutPort_iff apart.isRest]
  constructor
  · intro overlong
    obtain ⟨word, host, digits, others, isEndpoint, hasWord, isWord, hasHost, noSlash, noColon,
      isLong, areDigits⟩ := overlong
    have isHost : ∀ character ∈ host, endsHost character = false := by
      intro character member
      simp only [endsHost, Bool.or_eq_false_iff, beq_eq_false_iff_ne]
      exact ⟨ne_of_mem_of_not_mem member noSlash, ne_of_mem_of_not_mem member noColon⟩
    have found := ofText?_text (show Apart ⟨word, host, ':' :: (digits ++ others)⟩ from
      ⟨isWord, hasWord, isHost, hasHost, fun first isFirst => by cases isFirst; rfl⟩)
    have same : text ⟨word, host, ':' :: (digits ++ others)⟩ = endpoint := by
      rw [isEndpoint, isMark, List.append_assoc, List.append_assoc]
      rfl
    rw [same, isParts] at found
    cases found
    exact ⟨digits, others, rfl, isLong, areDigits⟩
  · intro overlong
    obtain ⟨digits, others, isRest, isLong, areDigits⟩ := overlong
    refine ⟨parts.word, parts.host, digits, others, ?_, apart.hasWord, apart.isWord, apart.hasHost,
      ?_, ?_, isLong, areDigits⟩
    · rw [← isText, text, isRest, isMark, List.append_assoc, List.append_assoc]
      rfl
    · intro member
      cases apart.isHost '/' member
    · intro member
      cases apart.isHost ':' member

end EndpointParts

theorem replacePort_of_not_beginsWithHost {endpoint : List Char}
    (noHost : ¬ BeginsWithHost endpoint) (port : Nat) : replacePort endpoint port = endpoint := by
  have isNone : EndpointParts.ofText? endpoint = none := by
    rw [Option.eq_none_iff_forall_ne_some]
    exact fun parts isParts => noHost (EndpointParts.beginsWithHost_iff.mpr ⟨parts, isParts⟩)
  rw [replacePort, isNone]

theorem beginsWithHost_of_hasOverlongPort {endpoint : List Char}
    (overlong : HasOverlongPort endpoint) : BeginsWithHost endpoint := by
  obtain ⟨word, host, digits, others, isText, hasWord, isWord, hasHost, noSlash, noColon, _⟩ :=
    overlong
  obtain ⟨first, behind, isHost⟩ := List.exists_cons_of_ne_nil hasHost
  have inHost : first ∈ host := by
    rw [isHost]
    exact List.mem_cons_self
  refine ⟨word, first, behind ++ ':' :: (digits ++ others), ?_, hasWord, isWord,
    ne_of_mem_of_not_mem inHost noSlash, ne_of_mem_of_not_mem inHost noColon⟩
  rw [isText, isHost]
  simp only [List.append_assoc, List.cons_append]

theorem replacePort_replacePort_iff {endpoint : List Char} {first : Nat} (bounded : first ≤ 0xFFFF)
    (second : Nat) :
    replacePort (replacePort endpoint first) second = replacePort endpoint second ↔
      ¬ (HasOverlongPort endpoint ∧ first < 10000) := by
  by_cases hasHost : BeginsWithHost endpoint
  · obtain ⟨parts, isParts⟩ := EndpointParts.beginsWithHost_iff.mp hasHost
    rw [EndpointParts.replacePort_of_ofText? (EndpointParts.ofText?_replacePort isParts first),
      EndpointParts.replacePort_of_ofText? isParts, EndpointParts.hasOverlongPort_iff isParts,
      ← withoutPort_decimalDigits bounded]
    simp
  · have kept := replacePort_of_not_beginsWithHost hasHost
    rw [kept first]
    exact iff_of_true rfl fun overlong =>
      hasHost (beginsWithHost_of_hasOverlongPort overlong.1)

/-- The port that is given last counts, whichever came before it, except for an endpoint with
more digits behind its host than a port has. There the digits behind the fifth one are left
over, and a port with less than five digits takes them in. What does not begin like an endpoint is
left as it is. -/
theorem Settings.lastPortCounts_iff (settings : Settings) :
    (∀ first second : UInt16,
      { settings with
          endpoint := { settings with port := some first }.origin
          port := some second }.origin = { settings with port := some second }.origin ↔
        ¬ (HasOverlongPort settings.endpoint.toList ∧ first.toNat < 10000)) ∧
    (¬ BeginsWithHost settings.endpoint.toList → ∀ port : UInt16,
      { settings with port := some port }.origin = settings.endpoint) := by
  constructor
  · intro first second
    have bounded : first.toNat ≤ 0xFFFF := Nat.le_of_lt_succ first.toNat_lt
    have twice := origin_of_port
      { settings with endpoint := { settings with port := some first }.origin } second
    rw [← replacePort_replacePort_iff bounded second.toNat, ← String.toList_inj,
      origin_of_port settings second, ← origin_of_port settings first, ← twice]
  · intro noHost port
    rw [← String.toList_inj, origin_of_port, replacePort_of_not_beginsWithHost noHost]

/-- Six digits behind the host, of which a port with two digits leaves the last one to the next
port; and a host without a scheme, which gets no port. -/
theorem Settings.lastPortCounts_iff_overlong :
    let settings : Settings := { ofGiven .nothing with endpoint := "http://h:123456/x" }
    let unmarked : Settings := { ofGiven .nothing with endpoint := "localhost:9090" }
    { settings with port := some 80 }.origin = "http://h:806/x" ∧
      { settings with
          endpoint := { settings with port := some 80 }.origin
          port := some 8080 }.origin ≠ { settings with port := some 8080 }.origin ∧
      ¬ BeginsWithHost unmarked.endpoint.toList ∧
      { unmarked with port := some 80 }.origin = "localhost:9090" := by
  intro settings unmarked
  have overlong : HasOverlongPort settings.endpoint.toList := by
    have isWord : "http".toList.all isWordCharacter = true := by decide +kernel
    have areDigits : "123456".toList.all isDigitOfAnyScript = true := by decide +kernel
    exact ⟨"http".toList, "h".toList, "123456".toList, "/x".toList, by decide,
      by decide, List.all_eq_true.mp isWord, by decide, by decide, by decide, by decide,
      List.all_eq_true.mp areDigits⟩
  have noHost : ¬ BeginsWithHost unmarked.endpoint.toList := by
    rw [EndpointParts.beginsWithHost_iff]
    have isNone : EndpointParts.ofText? unmarked.endpoint.toList = none := by decide +kernel
    rw [isNone]
    exact fun ⟨_, isSome⟩ => nomatch isSome
  have counts := settings.lastPortCounts_iff.1 80 8080
  exact ⟨by decide +kernel, fun same => counts.mp same ⟨overlong, by decide⟩, noHost,
    unmarked.lastPortCounts_iff.2 noHost 80⟩

end MetricWatch.CommandLine
