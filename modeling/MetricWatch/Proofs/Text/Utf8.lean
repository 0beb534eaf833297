import MetricWatch.Text.Utf8

namespace MetricWatch.Utf8

/-! Text that is encoded as bytes is read back glyph by glyph. -/

theorem toNat_ofNat {value : Nat} (small : value < 256) :
    (UInt8.ofNat value).toNat = value :=
  UInt8.toNat_ofNat_of_lt small

theorem continuation?_ofNat {bits : Nat} (small : bits < 0x40) :
    continuation? (UInt8.ofNat (bits + 0x80)) = some bits := by
  rw [continuation?, toNat_ofNat (by omega), if_pos (by omega)]
  simp

theorem continuation?_mod (code : Nat) :
    continuation? (UInt8.ofNat (code % 0x40 + 0x80)) = some (code % 0x40) :=
  continuation?_ofNat (Nat.mod_lt _ (by decide))

theorem character?_toNat (character : Char) :
    character? character.toNat = some character := by
  have valid : character.toNat.isValidChar := character.valid
  rw [character?, dif_pos valid]
  rfl

/-! The lead byte of a character says how many continuation bytes belong to it. -/

section Lead

variable {code : Nat} {character : Char} (isCharacter : character? code = some character)
  (rest : List UInt8)

include isCharacter

theorem leading?_one (small : code < 0x80) :
    leading? (UInt8.ofNat code) rest = some (character, 0) := by
  have lead : (UInt8.ofNat code).toNat = code := toNat_ofNat (by omega)
  simp only [leading?, lead, small, if_true, isCharacter]
  rfl

theorem leading?_two (notLess : 0x80 ≤ code) (small : code < 0x800) :
    leading? (UInt8.ofNat (code / 0x40 % 0x20 + 0xC0))
      (UInt8.ofNat (code % 0x40 + 0x80) :: rest) = some (character, 1) := by
  have lead : (UInt8.ofNat (code / 0x40 % 0x20 + 0xC0)).toNat = code / 0x40 + 0xC0 := by
    rw [toNat_ofNat (by omega)]
    omega
  have whole : (code / 0x40 + 0xC0 - 0xC0) * 0x40 + code % 0x40 = code := by omega
  simp only [leading?, lead]
  rw [if_neg (by omega), if_neg (by omega), if_pos (by omega)]
  refine Option.bind_eq_some_iff.mpr ⟨_, continuation?_mod code, ?_⟩
  rw [whole, isCharacter]
  rfl

theorem leading?_three (notLess : 0x800 ≤ code) (small : code < 0x10000) :
    leading? (UInt8.ofNat (code / 0x1000 % 0x10 + 0xE0))
      (UInt8.ofNat (code / 0x40 % 0x40 + 0x80) :: UInt8.ofNat (code % 0x40 + 0x80) :: rest) =
        some (character, 2) := by
  have lead : (UInt8.ofNat (code / 0x1000 % 0x10 + 0xE0)).toNat = code / 0x1000 + 0xE0 := by
    rw [toNat_ofNat (by omega)]
    omega
  have whole : (code / 0x1000 + 0xE0 - 0xE0) * 0x1000 + code / 0x40 % 0x40 * 0x40 +
      code % 0x40 = code := by omega
  simp only [leading?, lead]
  rw [if_neg (by omega), if_neg (by omega), if_neg (by omega), if_pos (by omega)]
  refine Option.bind_eq_some_iff.mpr ⟨_, continuation?_mod (code / 0x40), ?_⟩
  refine Option.bind_eq_some_iff.mpr ⟨_, continuation?_mod code, ?_⟩
  rw [whole, if_neg (Nat.not_lt.mpr notLess), isCharacter]
  rfl

theorem leading?_four (notLess : 0x10000 ≤ code) (small : code < 0x110000) :
    leading? (UInt8.ofNat (code / 0x40000 % 0x08 + 0xF0))
      (UInt8.ofNat (code / 0x1000 % 0x40 + 0x80) :: UInt8.ofNat (code / 0x40 % 0x40 + 0x80) ::
        UInt8.ofNat (code % 0x40 + 0x80) :: rest) = some (character, 3) := by
  have lead : (UInt8.ofNat (code / 0x40000 % 0x08 + 0xF0)).toNat = code / 0x40000 + 0xF0 := by
    rw [toNat_ofNat (by omega)]
    omega
  have whole : (code / 0x40000 + 0xF0 - 0xF0) * 0x40000 + code / 0x1000 % 0x40 * 0x1000 +
      code / 0x40 % 0x40 * 0x40 + code % 0x40 = code := by omega
  simp only [leading?, lead]
  rw [if_neg (by omega), if_neg (by omega), if_neg (by omega), if_neg (by omega),
    if_pos (by omega)]
  -- the binds are opened one by one: the kernel would compute with the products otherwise
  refine Option.bind_eq_some_iff.mpr ⟨_, continuation?_mod (code / 0x1000), ?_⟩
  refine Option.bind_eq_some_iff.mpr ⟨_, continuation?_mod (code / 0x40), ?_⟩
  refine Option.bind_eq_some_iff.mpr ⟨_, continuation?_mod code, ?_⟩
  rw [whole, if_neg (Nat.not_lt.mpr notLess), isCharacter]
  rfl

end Lead

theorem toNat_lt (character : Char) : character.toNat < 0x110000 := by
  rcases character.valid with low | high
  · change character.toNat < _ at low
    omega
  · exact high.2

theorem leading?_encodeCharacter (character : Char) (rest : List UInt8) :
    ∃ lead continuations, encodeCharacter character = lead :: continuations ∧
      leading? lead (continuations ++ rest) = some (character, continuations.length) := by
  have isCharacter := character?_toNat character
  have below := toNat_lt character
  have encoded : encodeCharacter character = String.utf8EncodeChar character := rfl
  rw [encoded, String.utf8EncodeChar]
  simp only [show character.val.toNat = character.toNat from rfl]
  split
  · rename_i one
    exact ⟨_, _, rfl, leading?_one isCharacter rest (by omega)⟩
  · split
    · rename_i two
      exact ⟨_, _, rfl, leading?_two isCharacter rest (by omega) (by omega)⟩
    · split
      · rename_i three
        exact ⟨_, _, rfl, leading?_three isCharacter rest (by omega) (by omega)⟩
      · exact ⟨_, _, rfl, leading?_four isCharacter rest (by omega) below⟩

theorem glyphs_encode_append (text : List Char) (bytes : List UInt8) :
    glyphs (encode text ++ bytes) = text.map some ++ glyphs bytes := by
  induction text with
  | nil => rfl
  | cons character text induction =>
      rcases leading?_encodeCharacter character (encode text ++ bytes) with
        ⟨lead, continuations, encoded, isLead⟩
      have spelled : encode (character :: text) ++ bytes =
          lead :: (continuations ++ (encode text ++ bytes)) := by
        simp [encode, encoded]
      rw [spelled, glyphs, isLead]
      simp only [List.drop_left, induction, List.map_cons, List.cons_append]

theorem glyphs_encode (text : List Char) : glyphs (encode text) = text.map some := by
  simpa [glyphs] using glyphs_encode_append text []

/-! Bytes that spell no character are replaced. Those of an encoding that breaks off are
replaced together, by a single U+FFFD. -/

def isSecondOf (lead second : Nat) : Bool :=
  if lead = 0xE0 then 0xA0 ≤ second && second < 0xC0
  else if lead = 0xED then 0x80 ≤ second && second < 0xA0
  else if lead = 0xF0 then 0x90 ≤ second && second < 0xC0
  else if lead = 0xF4 then 0x80 ≤ second && second < 0x90
  else 0x80 ≤ second && second < 0xC0

/-- How many bytes an encoding goes on for until it breaks off. -/
def brokenOff (lead : UInt8) (rest : List UInt8) : Nat :=
  if 0xE0 ≤ lead.toNat ∧ lead.toNat ≤ 0xF4 then
    match rest with
    | [] => 0
    | second :: behind =>
        if isSecondOf lead.toNat second.toNat then
          if 0xF0 ≤ lead.toNat ∧ behind.head?.any fun third => (continuation? third).isSome then 2
          else 1
        else 0
  else 0

def lossyText (bytes : List UInt8) : List Char :=
  match bytes with
  | [] => []
  | byte :: rest =>
      match leading? byte rest with
      | some (character, continuations) => character :: lossyText (rest.drop continuations)
      | none => '\uFFFD' :: lossyText (rest.drop (brokenOff byte rest))
termination_by bytes.length
decreasing_by
  all_goals simp only [List.length_drop, List.length_cons]
  all_goals omega

example : lossyText [0x61, 0xE2, 0x82, 0x62, 0xE0, 0x80, 0xF0, 0x9F, 0x98] =
    ['a', '\uFFFD', 'b', '\uFFFD', '\uFFFD', '\uFFFD'] := by
  decide +kernel

theorem lossyText_encodeCharacter_append (character : Char) (bytes : List UInt8) :
    lossyText (encodeCharacter character ++ bytes) = character :: lossyText bytes := by
  rcases leading?_encodeCharacter character bytes with ⟨lead, continuations, encoded, isLead⟩
  rw [encoded, List.cons_append, lossyText, isLead]
  simp only [List.drop_left]

theorem lossyText_encode (text : List Char) : lossyText (encode text) = text := by
  induction text with
  | nil => simp [encode, lossyText]
  | cons character text induction =>
      have spelled : encode (character :: text) = encodeCharacter character ++ encode text := rfl
      rw [spelled, lossyText_encodeCharacter_append, induction]

/-! A byte brings in one character at most. It may lead to a character together with the
bytes behind it, but these are continuation bytes, which would count for one each. -/

def IsContinuation (byte : UInt8) : Prop :=
  0x80 ≤ byte.toNat ∧ byte.toNat < 0xC0

theorem isContinuation_of_continuation? {byte : UInt8} {bits : Nat}
    (isLow : continuation? byte = some bits) : IsContinuation byte := by
  simp only [continuation?, Option.ite_none_right_eq_some] at isLow
  exact isLow.1

theorem lossyText_cons_of_isContinuation {byte : UInt8} (isContinuation : IsContinuation byte)
    (rest : List UInt8) : lossyText (byte :: rest) = '\uFFFD' :: lossyText rest := by
  rcases isContinuation with ⟨least, most⟩
  have noLead : leading? byte rest = none := by
    simp only [leading?]
    rw [if_neg (by omega), if_pos (by omega)]
  have alone : brokenOff byte rest = 0 := by
    unfold brokenOff
    rw [if_neg (by omega)]
  rw [lossyText, noLead]
  simp only [alone, List.drop_zero]

theorem length_lossyText_drop_le {count : Nat} {bytes : List UInt8}
    (all : ∀ byte ∈ bytes.take count, IsContinuation byte) :
    (lossyText (bytes.drop count)).length ≤ (lossyText bytes).length := by
  induction count generalizing bytes with
  | zero => exact Nat.le_refl _
  | succ count induction =>
      cases bytes with
      | nil => exact Nat.le_refl _
      | cons byte rest =>
          rw [List.take_succ_cons, List.forall_mem_cons] at all
          rw [lossyText_cons_of_isContinuation all.1, List.drop_succ_cons]
          exact Nat.le_succ_of_le (induction all.2)

section Behind

variable {lead : UInt8} {rest : List UInt8}

theorem isContinuation_of_leading? {character : Char} {count : Nat}
    (isLead : leading? lead rest = some (character, count)) :
    ∀ byte ∈ rest.take count, IsContinuation byte := by
  have low := @isContinuation_of_continuation?
  simp only [leading?, Option.bind_eq_bind, Option.pure_def] at isLead
  split at isLead
  · rcases Option.map_eq_some_iff.mp isLead with ⟨_, _, equal⟩
    cases equal
    exact nofun
  split at isLead
  · cases isLead
  split at isLead
  · split at isLead
    · simp only [Option.bind_eq_some_iff] at isLead
      rcases isLead with ⟨_, isSecond, _, _, equal⟩
      cases equal
      simp [low isSecond]
    · cases isLead
  split at isLead
  · split at isLead
    · simp only [Option.bind_eq_some_iff, Option.ite_none_left_eq_some] at isLead
      rcases isLead with ⟨_, isSecond, _, isThird, _, _, _, equal⟩
      cases equal
      simp [low isSecond, low isThird]
    · cases isLead
  split at isLead
  · split at isLead
    · simp only [Option.bind_eq_some_iff, Option.ite_none_left_eq_some] at isLead
      rcases isLead with ⟨_, isSecond, _, isThird, _, isFourth, _, _, _, equal⟩
      cases equal
      simp [low isSecond, low isThird, low isFourth]
    · cases isLead
  · cases isLead

theorem isContinuation_of_isSecondOf {second : UInt8}
    (isSecond : isSecondOf lead.toNat second.toNat = true) : IsContinuation second := by
  simp only [isSecondOf] at isSecond
  rw [IsContinuation]
  grind

theorem isContinuation_of_brokenOff :
    ∀ byte ∈ rest.take (brokenOff lead rest), IsContinuation byte := by
  unfold brokenOff
  split
  · split
    · exact nofun
    · split
      · rename_i second behind isSecond
        have first := isContinuation_of_isSecondOf isSecond
        split
        · rename_i isThird
          cases behind with
          | nil => simp at isThird
          | cons third _ =>
              rcases Option.isSome_iff_exists.mp isThird.2 with ⟨_, isLow⟩
              simp [first, isContinuation_of_continuation? isLow]
        · simp [first]
      · exact nofun
  · exact nofun

theorem length_lossyText_cons_le (lead : UInt8) (rest : List UInt8) :
    (lossyText (lead :: rest)).length ≤ (lossyText rest).length + 1 := by
  rw [lossyText]
  split
  · rename_i isLead
    exact Nat.succ_le_succ (length_lossyText_drop_le (isContinuation_of_leading? isLead))
  · exact Nat.succ_le_succ (length_lossyText_drop_le isContinuation_of_brokenOff)

end Behind

end MetricWatch.Utf8
