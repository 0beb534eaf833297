import MetricWatch.Json.Number
import MetricWatch.Json.Quoted

namespace MetricWatch.Json

/-! The smallest parts of a document. A text or a literal is read in two ways at
once: `strict` is what it stands for, and `skimmed` the fault that even a reader
meets who only wants to pass over it. Nothing can be told about the glyphs behind
a part that cannot be passed over, so it is the last one. -/

structure Lexeme (Content : Type) where
  strict : Except Fault Content
  skimmed : Option Fault

inductive Literal where
  | null
  | bool (value : Bool)
  | number (value : Number)
deriving DecidableEq

inductive Bracket where
  | array
  | object
deriving DecidableEq

inductive Token where
  | opening (bracket : Bracket)
  | closing (bracket : Bracket)
  | comma
  | colon
  | text (lexeme : Lexeme String)
  | literal (lexeme : Lexeme Literal)
  | stray

namespace Token

def isBlank (glyph : Glyph) : Bool :=
  glyph == some ' ' || glyph == some '\n' || glyph == some '\t' || glyph == some '\r'

/-- A part together with the glyphs behind it, if it can be passed over. -/
structure Scanned (Content : Type) where
  lexeme : Lexeme Content
  rest : Option (List Glyph)

def scanText (glyphs : List Glyph) : Scanned String :=
  let strict := (Quoted.read glyphs).map (·.1)
  match Quoted.skim glyphs with
  | .ok rest => ⟨⟨strict, none⟩, some rest⟩
  | .error fault => ⟨⟨strict, some fault⟩, none⟩

def readNumber (glyphs : List Glyph) : Except Fault Literal := do
  let (spelling, _) ← Spelling.scan .endInValue glyphs
  let number ← spelling.number
  return .number number

def scanNumber (glyphs : List Glyph) : Scanned Literal :=
  let strict := readNumber glyphs
  match Spelling.scan .invalidNumber glyphs with
  | .ok (_, rest) => ⟨⟨strict, none⟩, some rest⟩
  | .error fault => ⟨⟨strict, some fault⟩, none⟩

def wordRest (letters : List Char) (glyphs : List Glyph) : Except Fault (List Glyph) :=
  match letters, glyphs with
  | [], rest => .ok rest
  | _ :: _, [] => .error .endInValue
  | letter :: letters, glyph :: rest =>
      if glyph = some letter then wordRest letters rest else .error .expectedWord

def scanWord (letters : List Char) (literal : Literal) (glyphs : List Glyph) :
    Scanned Literal :=
  match wordRest letters glyphs with
  | .ok rest => ⟨⟨.ok literal, none⟩, some rest⟩
  | .error fault => ⟨⟨.error fault, some fault⟩, none⟩

/-! The first part of a text that does not begin with a blank. -/

def punctuation? (glyph : Glyph) : Option Token :=
  match glyph with
  | some '[' => some (.opening .array)
  | some ']' => some (.closing .array)
  | some '{' => some (.opening .object)
  | some '}' => some (.closing .object)
  | some ',' => some .comma
  | some ':' => some .colon
  | _ => none

def scanLiteral? (glyph : Glyph) (rest : List Glyph) : Option (Scanned Literal) :=
  match glyph with
  | some 'n' => some (scanWord ['u', 'l', 'l'] .null rest)
  | some 't' => some (scanWord ['r', 'u', 'e'] (.bool true) rest)
  | some 'f' => some (scanWord ['a', 'l', 's', 'e'] (.bool false) rest)
  | _ =>
      if glyph = some '-' || Spelling.isDigitGlyph glyph then some (scanNumber (glyph :: rest))
      else none

def next (glyph : Glyph) (rest : List Glyph) : Token × Option (List Glyph) :=
  match punctuation? glyph with
  | some token => (token, some rest)
  | none =>
      if glyph = some '"' then
        let scanned := scanText rest
        (.text scanned.lexeme, scanned.rest)
      else
        match scanLiteral? glyph rest with
        | some scanned => (.literal scanned.lexeme, scanned.rest)
        | none => (.stray, none)

/-! Every part takes at least one glyph. -/

theorem length_le_of_wordRest {letters : List Char} {glyphs rest : List Glyph}
    (found : wordRest letters glyphs = .ok rest) : rest.length ≤ glyphs.length := by
  induction letters generalizing glyphs with
  | nil =>
      simp only [wordRest, Except.ok.injEq] at found
      exact Nat.le_of_eq (congrArg List.length found.symm)
  | cons letter letters induction =>
      cases glyphs with
      | nil => simp [wordRest] at found
      | cons glyph glyphs =>
          simp only [wordRest] at found
          split at found
          · exact Nat.le_succ_of_le (induction found)
          · cases found

theorem length_le_of_scanWord {letters : List Char} {literal : Literal}
    {glyphs rest : List Glyph} (found : (scanWord letters literal glyphs).rest = some rest) :
    rest.length ≤ glyphs.length := by
  unfold scanWord at found
  split at found
  · rename_i remaining passed
    cases found
    exact length_le_of_wordRest passed
  · cases found

theorem length_lt_of_scanText {glyphs rest : List Glyph}
    (found : (scanText glyphs).rest = some rest) : rest.length < glyphs.length := by
  unfold scanText at found
  split at found
  · rename_i remaining passed
    cases found
    exact Quoted.length_lt_of_skim passed
  · cases found

theorem length_lt_of_scanNumber {glyphs rest : List Glyph}
    (found : (scanNumber glyphs).rest = some rest) : rest.length < glyphs.length := by
  unfold scanNumber at found
  split at found
  · rename_i passed
    cases found
    exact Spelling.length_lt_of_scan passed
  · cases found

theorem length_le_of_scanLiteral? {glyph : Glyph} {glyphs rest : List Glyph}
    {scanned : Scanned Literal} (found : scanLiteral? glyph glyphs = some scanned)
    (passed : scanned.rest = some rest) : rest.length ≤ glyphs.length := by
  unfold scanLiteral? at found
  split at found
  · cases found
    exact length_le_of_scanWord passed
  · cases found
    exact length_le_of_scanWord passed
  · cases found
    exact length_le_of_scanWord passed
  · split at found
    · cases found
      exact Nat.le_of_lt_succ (length_lt_of_scanNumber passed)
    · cases found

theorem length_le_of_next {glyph : Glyph} {glyphs rest : List Glyph} {token : Token}
    (found : next glyph glyphs = (token, some rest)) : rest.length ≤ glyphs.length := by
  unfold next at found
  split at found
  · simp only [Prod.mk.injEq, Option.some.injEq] at found
    exact Nat.le_of_eq (congrArg List.length found.2.symm)
  · split at found
    · simp only [Prod.mk.injEq] at found
      exact Nat.le_of_lt (length_lt_of_scanText found.2)
    · split at found
      · rename_i scanned literal
        simp only [Prod.mk.injEq] at found
        exact length_le_of_scanLiteral? literal found.2
      · simp at found

/-- The parts of a text in order. Blanks only separate them. -/
def ofGlyphs (glyphs : List Glyph) : List Token :=
  match glyphs with
  | [] => []
  | glyph :: rest =>
      if isBlank glyph then ofGlyphs rest
      else
        match _following : next glyph rest with
        | (token, some remaining) => token :: ofGlyphs remaining
        | (token, none) => [token]
termination_by glyphs.length
decreasing_by
  · exact Nat.lt_succ_self _
  · exact Nat.lt_succ_of_le (length_le_of_next _following)

theorem ofGlyphs_cons_of_isBlank {glyph : Glyph} (blank : isBlank glyph)
    (glyphs : List Glyph) : ofGlyphs (glyph :: glyphs) = ofGlyphs glyphs := by
  rw [ofGlyphs]
  simp [blank]

end Token

end MetricWatch.Json
