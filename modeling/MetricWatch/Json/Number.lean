import MetricWatch.Json.Fault
import MetricWatch.Number.DecimalStyle
import MetricWatch.Number.NumericPrefix
import MetricWatch.Number.Scaled
import MetricWatch.Text.Utf8

namespace MetricWatch.Json

/-- Numbers of a document. A number without fraction and exponent that fits into
64 bits, signed or unsigned, is a whole number; every other one is a double, and
so is `-0`. -/
inductive Number where
  | whole (value : Int)
  | real (value : Binary64)
deriving DecidableEq

namespace Number

def toBinary64 : Number → Binary64
  | .whole value => .ofInt value
  | .real value => value

/-- Numbers are written with a point or an exponent exactly if they are not
whole numbers. -/
def realStyle : DecimalStyle where
  plainFrom := some (-5)
  plainBelow := some 16
  wholeFraction := true
  tie := .toEven

def write : Number → String
  | .whole value => integerText value
  | .real value => realStyle.write value

example : (real (.ofBits 0x3E7AD7F29ABCAF48)).write = "1e-7" := by decide +kernel

example : (real (.ofBits 0x4341C37937E08000)).write = "1e+16" := by decide +kernel

example : (real (.ofBits 0x8000000000000000)).write = "-0.0" := by decide +kernel

end Number

/-- A number as spelled, after its sign: the digits before the point, the digits
after it, and the exponent, where they are present. -/
structure Spelling where
  negative : Bool
  whole : List Char
  fraction : Option (List Char)
  exponent : Option Int

namespace Spelling

def isDigitGlyph : Glyph → Bool
  | some character => isDecimalDigit character
  | none => false

def digitsOf (glyphs : List Glyph) : List Char :=
  (glyphs.takeWhile isDigitGlyph).map Utf8.glyphCharacter

def afterDigits (glyphs : List Glyph) : List Glyph :=
  glyphs.dropWhile isDigitGlyph

theorem length_afterDigits_le (glyphs : List Glyph) :
    (afterDigits glyphs).length ≤ glyphs.length :=
  (List.dropWhile_sublist _).length_le

/-! Each part leaves the glyphs behind it. The end of the text inside a number is
reported as the caller wishes. -/

def scanDigits (atEnd : Fault) (glyphs : List Glyph) :
    Except Fault (List Char × List Glyph) :=
  match glyphs with
  | [] => .error atEnd
  | first :: rest =>
      if isDigitGlyph first then .ok (digitsOf (first :: rest), afterDigits rest)
      else .error .invalidNumber

def scanWhole (atEnd : Fault) (glyphs : List Glyph) :
    Except Fault (List Char × List Glyph) :=
  match glyphs with
  | some '0' :: next :: rest =>
      if isDigitGlyph next then .error .invalidNumber else .ok (['0'], next :: rest)
  | _ => scanDigits atEnd glyphs

def scanFraction (atEnd : Fault) (glyphs : List Glyph) :
    Except Fault (Option (List Char) × List Glyph) :=
  match glyphs with
  | some '.' :: rest => (scanDigits atEnd rest).map fun parts => (some parts.1, parts.2)
  | _ => .ok (none, glyphs)

def scanSize (atEnd : Fault) (sign : Int) (glyphs : List Glyph) :
    Except Fault (Int × List Glyph) :=
  (scanDigits atEnd glyphs).map fun parts => (sign * digitsValue parts.1, parts.2)

def scanSignedExponent (atEnd : Fault) (glyphs : List Glyph) :
    Except Fault (Int × List Glyph) :=
  match glyphs with
  | some '-' :: rest => scanSize atEnd (-1) rest
  | some '+' :: rest => scanSize atEnd 1 rest
  | _ => scanSize atEnd 1 glyphs

def scanExponent (atEnd : Fault) (glyphs : List Glyph) :
    Except Fault (Option Int × List Glyph) :=
  match glyphs with
  | some 'e' :: rest | some 'E' :: rest =>
      (scanSignedExponent atEnd rest).map fun parts => (some parts.1, parts.2)
  | _ => .ok (none, glyphs)

def scanUnsigned (atEnd : Fault) (negative : Bool) (glyphs : List Glyph) :
    Except Fault (Spelling × List Glyph) := do
  let (whole, afterWhole) ← scanWhole atEnd glyphs
  let (fraction, afterFraction) ← scanFraction atEnd afterWhole
  let (exponent, remaining) ← scanExponent atEnd afterFraction
  return (⟨negative, whole, fraction, exponent⟩, remaining)

/-- The number at the start of some glyphs, with its sign. -/
def scan (atEnd : Fault) (glyphs : List Glyph) : Except Fault (Spelling × List Glyph) :=
  match glyphs with
  | some '-' :: rest => scanUnsigned atEnd true rest
  | _ => scanUnsigned atEnd false glyphs

/-! A number takes at least one glyph. -/

theorem length_lt_of_scanDigits {atEnd : Fault} {glyphs rest : List Glyph}
    {digits : List Char} (found : scanDigits atEnd glyphs = .ok (digits, rest)) :
    rest.length < glyphs.length := by
  cases glyphs with
  | nil => simp [scanDigits] at found
  | cons first remaining =>
      simp only [scanDigits] at found
      split at found
      · simp only [Except.ok.injEq, Prod.mk.injEq] at found
        have shorter := length_afterDigits_le remaining
        rw [found.2] at shorter
        exact Nat.lt_succ_of_le shorter
      · cases found

theorem length_lt_of_scanWhole {atEnd : Fault} {glyphs rest : List Glyph}
    {digits : List Char} (found : scanWhole atEnd glyphs = .ok (digits, rest)) :
    rest.length < glyphs.length := by
  unfold scanWhole at found
  split at found
  · split at found
    · cases found
    · simp only [Except.ok.injEq, Prod.mk.injEq] at found
      rw [← found.2]
      exact Nat.lt_succ_self _
  · exact length_lt_of_scanDigits found

theorem length_le_of_scanFraction {atEnd : Fault} {glyphs rest : List Glyph}
    {digits : Option (List Char)} (found : scanFraction atEnd glyphs = .ok (digits, rest)) :
    rest.length ≤ glyphs.length := by
  unfold scanFraction at found
  split at found
  · rename_i remaining
    cases scanned : scanDigits atEnd remaining with
    | error fault => simp [scanned, Except.map] at found
    | ok parts =>
        simp only [scanned, Except.map, Except.ok.injEq, Prod.mk.injEq] at found
        have shorter := length_lt_of_scanDigits scanned
        rw [found.2] at shorter
        simp only [List.length_cons]
        omega
  · simp only [Except.ok.injEq, Prod.mk.injEq] at found
    exact Nat.le_of_eq (congrArg List.length found.2.symm)

theorem length_lt_of_scanSize {atEnd : Fault} {sign : Int} {glyphs rest : List Glyph}
    {size : Int} (found : scanSize atEnd sign glyphs = .ok (size, rest)) :
    rest.length < glyphs.length := by
  unfold scanSize at found
  cases digits : scanDigits atEnd glyphs with
  | error fault => simp [digits, Except.map] at found
  | ok parts =>
      simp only [digits, Except.map, Except.ok.injEq, Prod.mk.injEq] at found
      have shorter := length_lt_of_scanDigits digits
      rwa [found.2] at shorter

theorem length_lt_of_scanSignedExponent {atEnd : Fault} {glyphs rest : List Glyph}
    {exponent : Int} (found : scanSignedExponent atEnd glyphs = .ok (exponent, rest)) :
    rest.length < glyphs.length := by
  unfold scanSignedExponent at found
  split at found
  · exact Nat.lt_succ_of_lt (length_lt_of_scanSize found)
  · exact Nat.lt_succ_of_lt (length_lt_of_scanSize found)
  · exact length_lt_of_scanSize found

theorem length_le_of_scanExponent {atEnd : Fault} {glyphs rest : List Glyph}
    {exponent : Option Int} (found : scanExponent atEnd glyphs = .ok (exponent, rest)) :
    rest.length ≤ glyphs.length := by
  have markedShorter : ∀ {unmarked : List Glyph},
      (scanSignedExponent atEnd unmarked).map (fun parts => (some parts.1, parts.2)) =
          .ok (exponent, rest) →
        rest.length ≤ unmarked.length := by
    intro unmarked scanned
    cases parts : scanSignedExponent atEnd unmarked with
    | error fault => simp [parts, Except.map] at scanned
    | ok signed =>
        simp only [parts, Except.map, Except.ok.injEq, Prod.mk.injEq] at scanned
        have shorter := length_lt_of_scanSignedExponent parts
        rw [scanned.2] at shorter
        exact Nat.le_of_lt shorter
  unfold scanExponent at found
  split at found
  · exact Nat.le_succ_of_le (markedShorter found)
  · exact Nat.le_succ_of_le (markedShorter found)
  · simp only [Except.ok.injEq, Prod.mk.injEq] at found
    exact Nat.le_of_eq (congrArg List.length found.2.symm)

theorem length_lt_of_scanUnsigned {atEnd : Fault} {negative : Bool}
    {glyphs rest : List Glyph} {spelling : Spelling}
    (found : scanUnsigned atEnd negative glyphs = .ok (spelling, rest)) :
    rest.length < glyphs.length := by
  unfold scanUnsigned at found
  cases whole : scanWhole atEnd glyphs with
  | error fault => simp [whole, bind, Except.bind] at found
  | ok wholeParts =>
      cases fraction : scanFraction atEnd wholeParts.2 with
      | error fault => simp [whole, fraction, bind, Except.bind] at found
      | ok fractionParts =>
          cases exponent : scanExponent atEnd fractionParts.2 with
          | error fault => simp [whole, fraction, exponent, bind, Except.bind] at found
          | ok exponentParts =>
              simp only [whole, fraction, exponent, bind, Except.bind, pure, Except.pure,
                Except.ok.injEq, Prod.mk.injEq] at found
              have afterWhole := length_lt_of_scanWhole whole
              have afterFraction := length_le_of_scanFraction fraction
              have afterExponent := length_le_of_scanExponent exponent
              rw [found.2] at afterExponent
              omega

theorem length_lt_of_scan {atEnd : Fault} {glyphs rest : List Glyph} {spelling : Spelling}
    (found : scan atEnd glyphs = .ok (spelling, rest)) : rest.length < glyphs.length := by
  unfold scan at found
  split at found
  · exact Nat.lt_succ_of_lt (length_lt_of_scanUnsigned found)
  · exact length_lt_of_scanUnsigned found

/-! The double that is read. Its digits are a whole number of 64 bits, and what
remains is a power of ten, by which that number is scaled in doubles. -/

/-- Digits are taken up one after the other until one does not fit any more. -/
def takeUp (significand : Nat) : List Char → Nat × List Char
  | [] => (significand, [])
  | digit :: rest =>
      let longer := 10 * significand + digitValue digit
      if longer < UInt64.size then takeUp longer rest else (significand, digit :: rest)

/-- The digits that are taken up, and the power of ten that belongs to the last one.
Digits before the point that are not taken up still count as places. -/
def significand (spelling : Spelling) : Nat × Int :=
  let fraction := spelling.fraction.getD []
  let (front, wholeLeft) := takeUp 0 spelling.whole
  let (significand, fractionLeft) := takeUp front fraction
  (significand, (wholeLeft.length : Int) + fractionLeft.length - fraction.length)

/-- The largest exponent that is computed with. -/
def exponentLimit : Nat := 0x7FFFFFFF

def magnitude? (spelling : Spelling) : Option Magnitude :=
  let (significand, places) := spelling.significand
  let exponent := spelling.exponent.getD 0
  if exponent.natAbs ≤ exponentLimit then
    (Magnitude.ofNat significand).scale? (places + exponent)
  else if significand = 0 ∨ exponent < 0 then some .zero
  else none

/-- Only a finite double is a number of a document. -/
def real (spelling : Spelling) : Except Fault Number :=
  match spelling.magnitude? with
  | some magnitude => .ok (.real (.number spelling.negative magnitude))
  | none => .error .numberOutOfRange

/-- The number that a spelling stands for. -/
def number (spelling : Spelling) : Except Fault Number :=
  if spelling.fraction.isNone && spelling.exponent.isNone then
    let size := digitsValue spelling.whole
    if spelling.negative then
      if 0 < size && size ≤ UInt64.size / 2 then .ok (.whole (-(size : Int))) else spelling.real
    else if size < UInt64.size then .ok (.whole size)
    else spelling.real
  else spelling.real

end Spelling

end MetricWatch.Json
