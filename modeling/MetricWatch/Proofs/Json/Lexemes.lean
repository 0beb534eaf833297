import MetricWatch.Proofs.Json.Outline

namespace MetricWatch.Json

/-! The smallest parts of a document are read as the grammar has them. A part is told
from what follows it: no number goes on with the character behind it. -/

namespace Grammar

abbrev glyphs (text : List Char) : List Glyph := text.map some

theorem glyphs_append (text rest : List Char) :
    glyphs (text ++ rest) = glyphs text ++ glyphs rest :=
  List.map_append

def goesOn (character : Char) : Bool :=
  isDecimalDigit character || character == '.' || character == 'e' || character == 'E'

/-- No part of a document reaches into what comes next. -/
def Ends (rest : List Char) : Prop :=
  ∀ character, rest.head? = some character → goesOn character = false

theorem Ends.cons {character : Char} (ends : goesOn character = false) (rest : List Char) :
    Ends (character :: rest) := by
  intro first isFirst
  cases isFirst
  exact ends

theorem Blanks.not_goesOn {blank : List Char} (blanks : Blanks blank) {character : Char}
    (member : character ∈ blank) : goesOn character = false := by
  have isBlank := blanks character member
  simp only [Token.isBlank, Bool.or_eq_true, beq_iff_eq, Option.some.injEq] at isBlank
  rcases isBlank with ((rfl | rfl) | rfl) | rfl <;> decide

theorem Blanks.ends_append {blank : List Char} (blanks : Blanks blank) {rest : List Char}
    (ends : Ends rest) : Ends (blank ++ rest) := by
  cases blank with
  | nil => exact ends
  | cons first others => exact .cons (blanks.not_goesOn List.mem_cons_self) _

theorem Blanks.ends {blank : List Char} (blanks : Blanks blank) : Ends blank := by
  have ends : Ends [] := by
    intro character isFirst
    cases isFirst
  simpa using blanks.ends_append ends

section Numbers

variable {rest : List Char}

/-- The first character behind a part, if there is one, is none of those. -/
def NotFirst (isSuch : Char → Bool) (rest : List Char) : Prop :=
  ∀ character, rest.head? = some character → isSuch character = false

theorem Digits.takeWhile {digits : List Char} (areDigits : Digits digits)
    (ends : NotFirst isDecimalDigit rest) :
    (glyphs (digits ++ rest)).takeWhile Spelling.isDigitGlyph = glyphs digits := by
  induction digits with
  | nil =>
      cases rest with
      | nil => rfl
      | cons first others => simp [Spelling.isDigitGlyph, ends first rfl]
  | cons digit digits induction =>
      have isDigit := areDigits digit List.mem_cons_self
      have others : Digits digits := fun other member =>
        areDigits other (List.mem_cons_of_mem digit member)
      simpa [Spelling.isDigitGlyph, isDigit] using induction others

theorem Digits.dropWhile {digits : List Char} (areDigits : Digits digits)
    (ends : NotFirst isDecimalDigit rest) :
    (glyphs (digits ++ rest)).dropWhile Spelling.isDigitGlyph = glyphs rest := by
  have whole := List.takeWhile_append_dropWhile (p := Spelling.isDigitGlyph)
    (l := glyphs (digits ++ rest))
  rw [areDigits.takeWhile ends, glyphs_append] at whole
  rw [glyphs_append]
  exact List.append_cancel_left whole

theorem map_glyphCharacter (text : List Char) :
    (glyphs text).map Utf8.glyphCharacter = text := by
  simp [Utf8.glyphCharacter, Function.comp_def]

theorem Digits.scan {digits : List Char} (areDigits : Digits digits) (atEnd : Fault)
    (nonempty : digits ≠ []) (ends : NotFirst isDecimalDigit rest) :
    Spelling.scanDigits atEnd (glyphs (digits ++ rest)) = .ok (digits, glyphs rest) := by
  cases digits with
  | nil => exact absurd rfl nonempty
  | cons digit digits =>
      have isDigit : Spelling.isDigitGlyph (some digit) = true :=
        areDigits digit List.mem_cons_self
      have others : Digits digits := fun other member =>
        areDigits other (List.mem_cons_of_mem digit member)
      have taken := areDigits.takeWhile ends
      have dropped := others.dropWhile ends
      simp only [List.cons_append, List.map_cons] at taken ⊢
      rw [Spelling.scanDigits, if_pos isDigit, Spelling.digitsOf, Spelling.afterDigits, taken,
        dropped]
      simp [Utf8.glyphCharacter, Function.comp_def]

theorem Whole.scan {whole : List Char} (isWhole : Whole whole) (atEnd : Fault)
    (ends : NotFirst isDecimalDigit rest) :
    Spelling.scanWhole atEnd (glyphs (whole ++ rest)) = .ok (whole, glyphs rest) := by
  cases isWhole with
  | zero =>
      cases rest with
      | nil => rfl
      | cons next others =>
          have notDigit : Spelling.isDigitGlyph (some next) = false := ends next rfl
          simp [Spelling.scanWhole, notDigit]
  | @digits first others notZero areDigits =>
      have scanned := areDigits.scan atEnd (by simp) ends
      rw [← scanned, Spelling.scanWhole]
      intro next remaining equal
      simp only [List.cons_append, List.map_cons, List.cons.injEq, Option.some.injEq] at equal
      exact notZero equal.1

theorem Fraction.scan {fraction : Option (List Char)} {text : List Char}
    (isFraction : Fraction fraction text) (atEnd : Fault) (ends : NotFirst isDecimalDigit rest)
    (noPoint : NotFirst (· == '.') rest) :
    Spelling.scanFraction atEnd (glyphs (text ++ rest)) = .ok (fraction, glyphs rest) := by
  cases isFraction with
  | absent =>
      rw [List.nil_append, Spelling.scanFraction]
      intro remaining equal
      cases rest with
      | nil => cases equal
      | cons first others =>
          have notPoint := noPoint first rfl
          simp only [List.map_cons, List.cons.injEq, Option.some.injEq] at equal
          simp [equal.1] at notPoint
  | present nonempty areDigits =>
      have scanned := areDigits.scan atEnd nonempty ends
      simp only [List.cons_append, List.map_cons, Spelling.scanFraction, scanned]
      rfl

theorem Sign.scan {sign : Int} {text digits : List Char} (isSign : Sign sign text)
    (atEnd : Fault) (nonempty : digits ≠ []) (areDigits : Digits digits)
    (ends : NotFirst isDecimalDigit rest) :
    Spelling.scanSignedExponent atEnd (glyphs (text ++ (digits ++ rest))) =
      .ok (sign * digitsValue digits, glyphs rest) := by
  have scanned : ∀ sign, Spelling.scanSize atEnd sign (glyphs (digits ++ rest)) =
      .ok (sign * digitsValue digits, glyphs rest) := by
    intro sign
    rw [Spelling.scanSize, areDigits.scan atEnd nonempty ends]
    rfl
  cases isSign with
  | plus => exact scanned 1
  | minus => exact scanned (-1)
  | absent =>
      cases digits with
      | nil => exact absurd rfl nonempty
      | cons digit digits =>
          have isDigit := areDigits digit List.mem_cons_self
          rw [← scanned, List.nil_append, Spelling.scanSignedExponent]
          · intro remaining equal
            simp only [List.cons_append, List.map_cons, List.cons.injEq, Option.some.injEq] at equal
            rw [equal.1] at isDigit
            cases isDigit
          · intro remaining equal
            simp only [List.cons_append, List.map_cons, List.cons.injEq, Option.some.injEq] at equal
            rw [equal.1] at isDigit
            cases isDigit

theorem Exponent.scan {exponent : Option Int} {text : List Char}
    (isExponent : Exponent exponent text) (atEnd : Fault) (ends : Ends rest) :
    Spelling.scanExponent atEnd (glyphs (text ++ rest)) = .ok (exponent, glyphs rest) := by
  have noDigit : NotFirst isDecimalDigit rest := by
    intro first isFirst
    have ended := ends first isFirst
    simp only [goesOn, Bool.or_eq_false_iff] at ended
    exact ended.1.1.1
  cases isExponent with
  | absent =>
      rw [List.nil_append, Spelling.scanExponent]
      · intro remaining equal
        cases rest with
        | nil => cases equal
        | cons first others =>
            have ended := ends first rfl
            simp only [List.map_cons, List.cons.injEq, Option.some.injEq] at equal
            simp [goesOn, equal.1] at ended
      · intro remaining equal
        cases rest with
        | nil => cases equal
        | cons first others =>
            have ended := ends first rfl
            simp only [List.map_cons, List.cons.injEq, Option.some.injEq] at equal
            simp [goesOn, equal.1] at ended
  | present isMark isSign nonempty areDigits =>
      have scanned := isSign.scan atEnd nonempty areDigits noDigit
      rcases isMark with rfl | rfl
      · simp only [List.cons_append, List.append_assoc, List.map_cons, Spelling.scanExponent,
          scanned]
        rfl
      · simp only [List.cons_append, List.append_assoc, List.map_cons, Spelling.scanExponent,
          scanned]
        rfl

end Numbers

theorem Fraction.first {fraction : Option (List Char)} {text : List Char}
    (isFraction : Fraction fraction text) : NotFirst isDecimalDigit text := by
  intro first isFirst
  cases isFraction with
  | absent => cases isFirst
  | present nonempty areDigits =>
      cases isFirst
      decide

theorem Exponent.first {exponent : Option Int} {text : List Char}
    (isExponent : Exponent exponent text) {first : Char} (isFirst : text.head? = some first) :
    first = 'e' ∨ first = 'E' := by
  cases isExponent with
  | absent => cases isFirst
  | present isMark isSign nonempty areDigits =>
      cases isFirst
      exact isMark

theorem NotFirst.append {isSuch : Char → Bool} {text rest : List Char}
    (notFirst : NotFirst isSuch text) (notNext : NotFirst isSuch rest) :
    NotFirst isSuch (text ++ rest) := by
  cases text with
  | nil => exact notNext
  | cons first others => exact notFirst

theorem Ends.notFirst {isSuch : Char → Bool} {rest : List Char} (ends : Ends rest)
    (goesOn : ∀ character, isSuch character = true → goesOn character = true) :
    NotFirst isSuch rest := by
  intro first isFirst
  cases such : isSuch first with
  | false => rfl
  | true =>
      have ended := ends first isFirst
      rw [goesOn first such] at ended
      cases ended

theorem Numeral.scan {spelling : Spelling} {text rest : List Char}
    (numeral : Numeral spelling text) (atEnd : Fault) (ends : Ends rest) :
    Spelling.scan atEnd (glyphs (text ++ rest)) = .ok (spelling, glyphs rest) := by
  cases numeral with
  | @of negative whole fractionText exponentText fraction exponent isWhole isFraction isExponent =>
    have noDigit : NotFirst isDecimalDigit (exponentText ++ rest) := by
      refine .append ?_ (ends.notFirst fun character isDigit => by simp [goesOn, isDigit])
      intro first isFirst
      rcases isExponent.first isFirst with rfl | rfl <;> decide
    have noPoint : NotFirst (· == '.') (exponentText ++ rest) := by
      refine .append ?_ (ends.notFirst fun character isPoint => by simp [goesOn, isPoint])
      intro first isFirst
      rcases isExponent.first isFirst with rfl | rfl <;> decide
    have unsigned : ∀ negative, Spelling.scanUnsigned atEnd negative
        (glyphs (whole ++ (fractionText ++ (exponentText ++ rest)))) =
          .ok (⟨negative, whole, fraction, exponent⟩, glyphs rest) := by
      intro negative
      have scannedWhole := isWhole.scan atEnd (isFraction.first.append noDigit)
      have scannedFraction := isFraction.scan atEnd noDigit noPoint
      have scannedExponent := isExponent.scan atEnd ends
      simp only [Spelling.scanUnsigned, scannedWhole, scannedFraction, scannedExponent, bind,
        Except.bind, pure, Except.pure]
    cases negative with
    | true => simpa [Spelling.scan] using unsigned true
    | false =>
        have scanned := unsigned false
        simp only [Bool.false_eq_true, if_false, List.nil_append, List.append_assoc]
        rw [← scanned, Spelling.scan]
        intro remaining equal
        cases isWhole with
        | zero => simp at equal
        | digits notZero areDigits =>
            have isDigit := areDigits _ List.mem_cons_self
            simp only [List.cons_append, List.map_cons, List.cons.injEq, Option.some.injEq]
              at equal
            rw [equal.1] at isDigit
            cases isDigit

/-! Texts. -/

theorem ne_u_of_ofLetter? {letter character : Char}
    (isLetter : Quoted.ofLetter? letter = some character) : letter ≠ 'u' := by
  rintro rfl
  cases isLetter

theorem isTrailingSurrogate_of_isLeadingSurrogate {unit : Nat}
    (isLeading : Quoted.isLeadingSurrogate unit = true) :
    Quoted.isTrailingSurrogate unit = false := by
  simp only [Quoted.isLeadingSurrogate, Quoted.isTrailingSurrogate, Bool.and_eq_true,
    decide_eq_true_eq, Bool.and_eq_false_iff, decide_eq_false_iff_not] at isLeading ⊢
  omega

theorem Piece.readFrom {character : Char} {piece : List Char} (isPiece : Piece character piece)
    (content rest : List Glyph) :
    Quoted.readFrom none content (glyphs piece ++ rest) =
      Quoted.readFrom none (some character :: content) rest := by
  cases isPiece with
  | plain notQuote notBackslash notControl =>
      simp [Quoted.readFrom, notBackslash, notControl]
  | @letter letter _ isLetter =>
      simp [Quoted.readFrom, isLetter, ne_u_of_ofLetter? isLetter]
  | unit isUnit notLeading notTrailing =>
      simp [Quoted.readFrom, isUnit, notLeading, notTrailing]
  | pair isLeadingUnit isLeading isTrailingUnit isTrailing =>
      simp [Quoted.readFrom, isLeadingUnit, isLeading, isTrailingUnit, isTrailing,
        isTrailingSurrogate_of_isLeadingSurrogate isLeading]

theorem Content.readFrom {content inner : List Char} (isContent : Content content inner)
    (earlier : List Char) (rest : List Glyph) :
    Quoted.readFrom none (glyphs earlier) (glyphs inner ++ some '"' :: rest) =
      .ok (String.ofList (earlier.reverse ++ content), rest) := by
  induction isContent generalizing earlier with
  | nil =>
      have characters : (glyphs earlier).reverse.map Utf8.glyphCharacter = earlier.reverse := by
        rw [← List.map_reverse]
        exact map_glyphCharacter earlier.reverse
      simp [Quoted.readFrom, Quoted.finish, ← characters]
  | @cons character content _ _ isPiece _ induction =>
      rw [glyphs_append, List.append_assoc, isPiece.readFrom]
      have read := induction (character :: earlier)
      simpa using read

theorem Content.contentOf {content inner : List Char} (isContent : Content content inner) :
    contentOf inner = .ok (String.ofList content) := by
  have read := isContent.readFrom [] []
  simp only [List.map_nil, List.reverse_nil, List.nil_append] at read
  rw [Grammar.contentOf, Quoted.read, List.map_append]
  exact congrArg (Except.map (·.1)) read

/-! Where a text ends does not depend on what its escapes stand for, and what it stands for
does not depend on what comes behind it. -/

theorem Mark.marks {mark : List Char} (isMark : Mark mark) : Marks mark := by
  have alone := Marks.cons isMark .nil
  rwa [List.append_nil] at alone

theorem Marks.append {front back : List Char} (isFront : Marks front) (isBack : Marks back) :
    Marks (front ++ back) := by
  induction isFront with
  | nil => exact isBack
  | cons mark _ induction =>
      rw [List.append_assoc]
      exact .cons mark induction

theorem Piece.marks {character : Char} {piece : List Char} (isPiece : Piece character piece) :
    Marks piece := by
  cases isPiece with
  | plain notQuote notBackslash notControl =>
      exact (Mark.plain notQuote notBackslash notControl).marks
  | letter isLetter => exact (Mark.letter (Option.isSome_of_eq_some isLetter)).marks
  | unit isUnit => exact (Mark.unit (Option.isSome_of_eq_some isUnit)).marks
  | pair isLeadingUnit _ isTrailingUnit =>
      have leading := (Mark.unit (Option.isSome_of_eq_some isLeadingUnit)).marks
      have trailing := (Mark.unit (Option.isSome_of_eq_some isTrailingUnit)).marks
      exact leading.append trailing

theorem Content.marks {content inner : List Char} (isContent : Content content inner) :
    Marks inner := by
  induction isContent with
  | nil => exact .nil
  | cons isPiece _ induction => exact isPiece.marks.append induction

theorem Quotes.marked {lexeme : Lexeme String} {text : List Char} (quotes : Quotes lexeme text) :
    ∃ inner, text = '"' :: (inner ++ ['"']) ∧ Marks inner ∧ lexeme = ⟨contentOf inner, none⟩ := by
  cases quotes with
  | marks marks => exact ⟨_, rfl, marks, rfl⟩
  | content quotation =>
      cases quotation with
      | of isContent =>
          refine ⟨_, rfl, isContent.marks, ?_⟩
          rw [isContent.contentOf, SyntaxTree.faultless]

theorem Marks.skim {inner : List Char} (marks : Marks inner) (rest : List Glyph) :
    Quoted.skim (glyphs inner ++ some '"' :: rest) = .ok rest := by
  induction marks with
  | nil => simp [Quoted.skim]
  | cons mark _ induction =>
      cases mark with
      | plain notQuote notBackslash notControl =>
          simpa [Quoted.skim, notBackslash, notControl] using induction
      | letter isLetter =>
          rcases Option.isSome_iff_exists.mp isLetter with ⟨_, isLetter⟩
          simpa [Quoted.skim, isLetter, ne_u_of_ofLetter? isLetter] using induction
      | unit isUnit => simpa [Quoted.skim, isUnit] using induction

theorem Marks.readFrom {inner : List Char} (marks : Marks inner) (leading : Option Nat)
    (content rest : List Glyph) :
    (Quoted.readFrom leading content (glyphs inner ++ some '"' :: rest)).map (·.1) =
      (Quoted.readFrom leading content (glyphs inner ++ [some '"'])).map (·.1) := by
  induction marks generalizing leading content with
  | nil =>
      cases leading with
      | some unit => simp [Quoted.readFrom]
      | none =>
          cases areCharacters : content.all Option.isSome with
          | true => simp [Quoted.readFrom, Quoted.finish, areCharacters, Except.map]
          | false => simp [Quoted.readFrom, Quoted.finish, areCharacters, Except.map]
  | cons mark _ induction =>
      cases mark with
      | plain notQuote notBackslash notControl =>
          cases leading with
          | some unit => simp [Quoted.readFrom, notBackslash]
          | none => simpa [Quoted.readFrom, notBackslash, notControl] using induction none _
      | letter isLetter =>
          rcases Option.isSome_iff_exists.mp isLetter with ⟨_, isLetter⟩
          cases leading with
          | some unit => simp [Quoted.readFrom, ne_u_of_ofLetter? isLetter]
          | none =>
              simpa [Quoted.readFrom, isLetter, ne_u_of_ofLetter? isLetter] using induction none _
      | unit isUnit =>
          rcases Option.isSome_iff_exists.mp isUnit with ⟨unit, isUnit⟩
          cases isTrailing : Quoted.isTrailingSurrogate unit with
          | true =>
              cases leading with
              | some leading => simpa [Quoted.readFrom, isUnit, isTrailing] using induction none _
              | none => simp [Quoted.readFrom, isUnit, isTrailing]
          | false =>
              cases leading with
              | some leading => simp [Quoted.readFrom, isUnit, isTrailing]
              | none =>
                  cases isLeading : Quoted.isLeadingSurrogate unit with
                  | true =>
                      simpa [Quoted.readFrom, isUnit, isTrailing, isLeading]
                        using induction (some unit) content
                  | false =>
                      simpa [Quoted.readFrom, isUnit, isTrailing, isLeading]
                        using induction none _

theorem Marks.scan {inner : List Char} (marks : Marks inner) (rest : List Char) :
    Token.scanText (glyphs (inner ++ ['"'] ++ rest)) =
      ⟨⟨contentOf inner, none⟩, some (glyphs rest)⟩ := by
  have parts : glyphs (inner ++ ['"'] ++ rest) = glyphs inner ++ some '"' :: glyphs rest := by
    simp [glyphs]
  have skimmed := marks.skim (glyphs rest)
  have read := marks.readFrom none [] (glyphs rest)
  simp only [Token.scanText, Quoted.read, parts, skimmed, read]
  simp [contentOf, Quoted.read]

/-! Parts. -/

theorem Blanks.ofGlyphs_append {blank : List Char} (blanks : Blanks blank) (rest : List Glyph) :
    Token.ofGlyphs (glyphs blank ++ rest) = Token.ofGlyphs rest := by
  induction blank with
  | nil => rfl
  | cons first others induction =>
      have isBlank := blanks first List.mem_cons_self
      rw [glyphs, List.map_cons, List.cons_append, Token.ofGlyphs_cons_of_isBlank isBlank]
      exact induction fun character member => blanks character (List.mem_cons_of_mem first member)

theorem ofGlyphs_cons_of_next {glyph : Glyph} {rest remaining : List Glyph} {token : Token}
    (notBlank : Token.isBlank glyph = false)
    (following : Token.next glyph rest = (token, some remaining)) :
    Token.ofGlyphs (glyph :: rest) = token :: Token.ofGlyphs remaining := by
  rw [Token.ofGlyphs, notBlank]
  simp only [Bool.false_eq_true, if_false]
  split
  · rename_i found isFound
    rw [following] at isFound
    cases isFound
    rfl
  · rename_i found isFound
    rw [following] at isFound
    cases isFound

theorem Quotes.ofGlyphs {lexeme : Lexeme String} {text : List Char} (quotes : Quotes lexeme text)
    (rest : List Char) :
    Token.ofGlyphs (glyphs (text ++ rest)) = .text lexeme :: Token.ofGlyphs (glyphs rest) := by
  rcases quotes.marked with ⟨inner, rfl, marks, rfl⟩
  have following : Token.next (some '"') (glyphs (inner ++ ['"'] ++ rest)) =
      (.text ⟨contentOf inner, none⟩, some (glyphs rest)) := by
    have notPunctuation : Token.punctuation? (some '"') = none := rfl
    simp only [Token.next, notPunctuation, if_true, marks.scan]
  exact ofGlyphs_cons_of_next rfl following

theorem wordRest_append (letters rest : List Char) :
    Token.wordRest letters (glyphs (letters ++ rest)) = .ok (glyphs rest) := by
  induction letters with
  | nil => rfl
  | cons letter letters induction =>
      rw [List.cons_append, glyphs, List.map_cons, Token.wordRest, if_pos rfl]
      exact induction

theorem scanWord_append (letters rest : List Char) (literal : Literal) :
    Token.scanWord letters literal (glyphs (letters ++ rest)) =
      ⟨⟨.ok literal, none⟩, some (glyphs rest)⟩ := by
  rw [Token.scanWord, wordRest_append]

/-- A number can be told by its first character. -/
def BeginsNumber (character : Char) : Prop :=
  character = '-' ∨ isDecimalDigit character = true

theorem Numeral.begins {spelling : Spelling} {text : List Char}
    (numeral : Numeral spelling text) :
    ∃ first others, text = first :: others ∧ BeginsNumber first := by
  cases numeral with
  | @of negative whole fractionText exponentText _ _ isWhole _ _ =>
    cases negative with
    | true => exact ⟨'-', _, rfl, .inl rfl⟩
    | false =>
        cases isWhole with
        | zero => exact ⟨'0', _, rfl, .inr rfl⟩
        | @digits first others _ areDigits =>
            exact ⟨first, _, rfl, .inr (areDigits first List.mem_cons_self)⟩

theorem BeginsNumber.ne {first : Char} (begins : BeginsNumber first) (other : Char)
    (isOther : (other == '-' || isDecimalDigit other) = false) : first ≠ other := by
  rintro rfl
  rw [Bool.or_eq_false_iff, beq_eq_false_iff_ne] at isOther
  rcases begins with isSign | isDigit
  · exact isOther.1 isSign
  · rw [isOther.2] at isDigit
    cases isDigit

theorem BeginsNumber.isBlank {first : Char} (begins : BeginsNumber first) :
    Token.isBlank (some first) = false := by
  have notSpace := begins.ne ' ' rfl
  have notNewline := begins.ne '\n' rfl
  have notTab := begins.ne '\t' rfl
  have notReturn := begins.ne '\r' rfl
  simp [Token.isBlank, notSpace, notNewline, notTab, notReturn]

theorem BeginsNumber.next {first : Char} (begins : BeginsNumber first) (others : List Glyph) :
    Token.next (some first) others =
      (.literal (Token.scanNumber (some first :: others)).lexeme,
        (Token.scanNumber (some first :: others)).rest) := by
  have notPunctuation : Token.punctuation? (some first) = none := by
    unfold Token.punctuation?
    split
    all_goals first
      | rfl
      | rename_i same
        cases same
        exact absurd rfl (begins.ne _ rfl)
  have notQuote : some first ≠ some '"' := by
    simpa using begins.ne '"' rfl
  have isNumber :
      (decide (some first = some '-') || Spelling.isDigitGlyph (some first)) = true := by
    rcases begins with rfl | isDigit
    · rfl
    · simp [Spelling.isDigitGlyph, isDigit]
  have scanned : Token.scanLiteral? (some first) others =
      some (Token.scanNumber (some first :: others)) := by
    unfold Token.scanLiteral?
    split
    · rename_i same
      cases same
      exact absurd rfl (begins.ne _ rfl)
    · rename_i same
      cases same
      exact absurd rfl (begins.ne _ rfl)
    · rename_i same
      cases same
      exact absurd rfl (begins.ne _ rfl)
    · rw [if_pos isNumber]
  simp only [Token.next, notPunctuation, notQuote, if_false, scanned]

theorem Numeral.ofGlyphs {spelling : Spelling} {text rest : List Char}
    (numeral : Numeral spelling text) (ends : Ends rest) :
    Token.ofGlyphs (glyphs (text ++ rest)) =
      .literal ⟨spelling.number.map .number, none⟩ :: Token.ofGlyphs (glyphs rest) := by
  rcases numeral.begins with ⟨first, others, rfl, begins⟩
  refine ofGlyphs_cons_of_next begins.isBlank ?_
  have scanned : ∀ atEnd, Spelling.scan atEnd (some first :: glyphs (others ++ rest)) =
      .ok (spelling, glyphs rest) := fun atEnd => numeral.scan atEnd ends
  have number : (spelling.number >>= fun number => pure (Literal.number number)) =
      spelling.number.map .number := by
    cases spelling.number <;> rfl
  have read : Token.scanNumber (some first :: glyphs (others ++ rest)) =
      ⟨⟨spelling.number.map .number, none⟩, some (glyphs rest)⟩ := by
    rw [← number]
    simp only [Token.scanNumber, Token.readNumber, scanned]
    rfl
  exact (begins.next _).trans (congrArg
    (fun found : Token.Scanned Literal => (Token.literal found.lexeme, found.rest)) read)

theorem Atom.ofGlyphs {literal : Literal} {text rest : List Char} (atom : Atom literal text)
    (ends : Ends rest) :
    Token.ofGlyphs (glyphs (text ++ rest)) =
      .literal (SyntaxTree.faultless literal) :: Token.ofGlyphs (glyphs rest) := by
  have word : ∀ {first : Char} {letters : List Char} {literal : Literal},
      Token.isBlank (some first) = false → Token.punctuation? (some first) = none →
        some first ≠ some '"' →
          (∀ others, Token.scanLiteral? (some first) others =
            some (Token.scanWord letters literal others)) →
            Token.ofGlyphs (glyphs (first :: letters ++ rest)) =
              .literal (SyntaxTree.faultless literal) :: Token.ofGlyphs (glyphs rest) := by
    intro first letters literal notBlank notPunctuation notQuote isWord
    refine ofGlyphs_cons_of_next notBlank ?_
    have scanned := scanWord_append letters rest literal
    simp only [Token.next, notPunctuation, notQuote, if_false, isWord]
    exact congrArg (fun found : Token.Scanned Literal => (Token.literal found.lexeme, found.rest))
      scanned
  cases atom with
  | null => exact word rfl rfl (by decide) (fun _ => rfl)
  | yes => exact word rfl rfl (by decide) (fun _ => rfl)
  | no => exact word rfl rfl (by decide) (fun _ => rfl)
  | number numeral isNumber =>
      rw [numeral.ofGlyphs ends, Spelling.number_eq_ok_iff.mpr isNumber]
      rfl

theorem Tells.ofGlyphs {lexeme : Lexeme Literal} {text rest : List Char}
    (tells : Tells lexeme text) (ends : Ends rest) :
    Token.ofGlyphs (glyphs (text ++ rest)) = .literal lexeme :: Token.ofGlyphs (glyphs rest) := by
  cases tells with
  | atom atom => exact atom.ofGlyphs ends
  | numeral numeral => exact numeral.ofGlyphs ends

end Grammar

end MetricWatch.Json
