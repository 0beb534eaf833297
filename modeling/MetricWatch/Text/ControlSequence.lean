import MetricWatch.Text.Utf8

namespace MetricWatch

/-! What a terminal shows of a text. Controls steer a terminal, and an escape makes
it take the characters behind it as a sequence that steers it, too. Nothing of that
is seen, except for controls that lay out the text. -/

/-- What a terminal takes the next character for. -/
inductive TerminalState where
  | text
  | escape
  | escapeIntermediate
  | controlSequence
  | deviceControl
  | deviceParameters
  | deviceIntermediate
  | hiddenString
  | systemCommand
deriving DecidableEq

namespace TerminalState

/-- The character behind an escape tells what kind of sequence it begins. -/
def afterEscape (code : Nat) : TerminalState :=
  if 0x20 ≤ code ∧ code < 0x30 then .escapeIntermediate
  else if code = 0x5B then .controlSequence
  else if code = 0x5D then .systemCommand
  else if code = 0x50 then .deviceControl
  else if [0x58, 0x5E, 0x5F].contains code then .hiddenString
  else if 0x30 ≤ code ∧ code < 0x7F then .text
  else .escape

/-- Control strings for a device begin with parameters. From the first character
that cannot belong to them to the end of the string all else is hidden. -/
def afterDevicePart (state : TerminalState) (lastParameter code : Nat) : TerminalState :=
  if code < 0x20 ∨ 0x7F ≤ code then state
  else if code < 0x30 then .deviceIntermediate
  else if code ≤ lastParameter then .deviceParameters
  else .hiddenString

/-- In UTF-8 a character may hold the byte that ends a string where characters are
single bytes. -/
def holdsStringEnd (character : Char) : Bool :=
  (Utf8.encodeCharacter character).contains 0x9C

/-- The characters that lay out a text have their effect also within a sequence,
which they break off, but not within a string. -/
def isLayout (character : Char) : Bool :=
  ['\t', '\n', '\x0C', '\r'].contains character

def isString : TerminalState → Bool
  | .text | .escape | .escapeIntermediate | .controlSequence => false
  | .deviceControl | .deviceParameters | .deviceIntermediate | .hiddenString
  | .systemCommand => true

def laysOut (state : TerminalState) (character : Char) : Bool :=
  isLayout character && !state.isString

def isFinal (firstFinal code : Nat) : Bool :=
  firstFinal ≤ code && code < 0x7F

def next (state : TerminalState) (character : Char) : TerminalState :=
  let code := character.toNat
  if code = 0x1B then .escape
  else if [0x18, 0x1A].contains code || state.laysOut character then .text
  else
    match state with
    | .text => .text
    | .escape => afterEscape code
    | .escapeIntermediate => if isFinal 0x30 code then .text else state
    | .controlSequence => if isFinal 0x40 code then .text else state
    | .deviceControl => afterDevicePart state 0x3F code
    | .deviceParameters => afterDevicePart state 0x3B code
    | .deviceIntermediate => afterDevicePart state 0 code
    | .hiddenString => if holdsStringEnd character then .text else state
    | .systemCommand => if code = 0x07 then .text else state

def isPrintable (character : Char) : Bool :=
  0x20 ≤ character.toNat && character.toNat != 0x7F

def shows (state : TerminalState) (character : Char) : Bool :=
  state.laysOut character || (state = .text && isPrintable character)

def shown (state : TerminalState) : List Char → List Char
  | [] => []
  | character :: rest =>
      let remaining := (state.next character).shown rest
      if state.shows character then character :: remaining else remaining

theorem next_text {character : Char} (printable : isPrintable character) :
    next .text character = .text := by
  have notEscape : character.toNat ≠ 0x1B := by
    intro equal
    simp [isPrintable, equal] at printable
  simp [next, notEscape]

/-- A text without controls is shown as it is. -/
theorem shown_of_isPrintable {text : List Char}
    (printable : ∀ character ∈ text, isPrintable character) :
    shown .text text = text := by
  induction text with
  | nil => rfl
  | cons character rest induction =>
      have head := printable character (by simp)
      have remaining := induction fun other member => printable other (by simp [member])
      simp [shown, shows, head, next_text head, remaining]

end TerminalState

/-- The text that is seen. An unfinished sequence takes the rest of it. -/
def shownText (text : String) : String :=
  String.ofList (TerminalState.shown .text text.toList)

example : shownText "a\x1B[1;31mb\x1B]0;c\x07d\x1BP1q\x1B\\e\x7Ff\x1B[\tg" = "abdef\tg" := by
  decide +kernel

end MetricWatch
