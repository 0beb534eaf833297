import MetricWatch.Proofs.Json.Lexemes
import MetricWatch.Proofs.Text.Utf8

namespace MetricWatch.Json

/-! The reader of documents builds the tree that outlines a text. While a value is read,
the frames around it stay as they are, so that the value is delivered to them at its end. -/

namespace Grammar

/-- The reader after it has read on through a text. -/
def readOn (reader : Reader) (text : List Char) : Reader :=
  (Token.ofGlyphs (glyphs text)).foldl Reader.step reader

theorem readOn_blanks {blank : List Char} (blanks : Blanks blank) (reader : Reader)
    (rest : List Char) : readOn reader (blank ++ rest) = readOn reader rest := by
  rw [readOn, readOn, glyphs_append, blanks.ofGlyphs_append]

theorem readOn_punctuation (character : Char) (token : Token)
    (isToken : Token.punctuation? (some character) = some token)
    (notBlank : Token.isBlank (some character) = false) (reader : Reader) (rest : List Char) :
    readOn reader (character :: rest) = readOn (reader.step token) rest := by
  have following : Token.next (some character) (glyphs rest) = (token, some (glyphs rest)) := by
    rw [Token.next, isToken]
  rw [readOn, glyphs, List.map_cons, ofGlyphs_cons_of_next notBlank following]
  rfl

theorem readOn_quotes {lexeme : Lexeme String} {text : List Char} (quotes : Quotes lexeme text)
    (reader : Reader) (rest : List Char) :
    readOn reader (text ++ rest) = readOn (reader.step (.text lexeme)) rest := by
  rw [readOn, quotes.ofGlyphs]
  rfl

theorem readOn_tells {lexeme : Lexeme Literal} {text rest : List Char} (tells : Tells lexeme text)
    (ends : Ends rest) (reader : Reader) :
    readOn reader (text ++ rest) = readOn (reader.step (.literal lexeme)) rest := by
  rw [readOn, tells.ofGlyphs ends]
  rfl

/-- A reader that takes the next part as the beginning of a value in some frames. An array
may also end where its first item could begin. -/
def AwaitsValue (reader : Reader) (frames : List Frame) : Prop :=
  ∀ token, token ≠ .closing .array → reader.step token = Reader.readValue frames token

theorem awaitsValue_valueDue (frames : List Frame) : AwaitsValue (.valueDue frames) frames :=
  fun _ _ => rfl

theorem awaitsValue_itemOrEnd (frames : List Frame) :
    AwaitsValue (.itemOrEnd frames) (.array [] :: frames) := by
  intro token notClosing
  cases token with
  | closing bracket =>
      cases bracket with
      | array => exact absurd rfl notClosing
      | object => rfl
  | opening _ | comma | colon | text _ | literal _ | stray => rfl

theorem awaitsValue_itemAfterComma (reversed : List Node) (frames : List Frame) :
    AwaitsValue (.itemAfterComma reversed frames) (.array reversed :: frames) := by
  intro token notClosing
  cases token with
  | closing bracket =>
      cases bracket with
      | array => exact absurd rfl notClosing
      | object => rfl
  | opening _ | comma | colon | text _ | literal _ | stray => rfl

/-! What follows an item or a member cannot be part of it. -/

theorem Blanks.ends_before {blank : List Char} (blanks : Blanks blank) (character : Char)
    (ends : goesOn character = false) (rest : List Char) : Ends (blank ++ character :: rest) :=
  blanks.ends_append (.cons ends rest)

theorem OutlinesItems.ends {items : List Node} {text : List Char}
    (further : OutlinesItems items text) (rest : List Char) : Ends (text ++ rest) := by
  cases further with
  | close blanks => simpa using blanks.ends_before ']' rfl rest
  | comma blanks => simpa using blanks.ends_before ',' rfl _

theorem OutlinesMembers.ends {members : List (Lexeme String × Node)} {text : List Char}
    (further : OutlinesMembers members text) (rest : List Char) : Ends (text ++ rest) := by
  cases further with
  | close blanks => simpa using blanks.ends_before '}' rfl rest
  | comma blanks => simpa using blanks.ends_before ',' rfl _

/-! A value that can be passed over is delivered, whether it can be read in full or not. -/

theorem readValue_text {lexeme : Lexeme String} {text : List Char} (quotes : Quotes lexeme text)
    (frames : List Frame) :
    Reader.readValue frames (.text lexeme) = Reader.deliver (.text lexeme) frames := by
  rw [Reader.readValue, Reader.place, quotes.skimmed]
  rfl

theorem readValue_literal {lexeme : Lexeme Literal} {text : List Char}
    (tells : Tells lexeme text) (frames : List Frame) :
    Reader.readValue frames (.literal lexeme) = Reader.deliver (.literal lexeme) frames := by
  rw [Reader.readValue, Reader.place, tells.skimmed]
  rfl

theorem readKey_text {lexeme : Lexeme String} {text : List Char} (quotes : Quotes lexeme text)
    (reversed : List (Lexeme String × Node)) (frames : List Frame) :
    Reader.readKey reversed frames (.text lexeme) = .colonDue reversed lexeme frames := by
  rw [Reader.readKey, quotes.skimmed]

mutual

theorem Outlines.readOn : ∀ {node : Node} {text : List Char}, Outlines node text →
    ∀ {reader : Reader} {frames : List Frame} {rest : List Char}, AwaitsValue reader frames →
      Ends rest →
        Grammar.readOn reader (text ++ rest) =
          Grammar.readOn (Reader.deliver node frames) rest
  | _, _, .literal tells, reader, frames, rest, awaits, ends => by
      rw [readOn_tells tells ends, awaits _ (by simp), readValue_literal tells]
  | _, _, .text quotes, reader, frames, rest, awaits, ends => by
      rw [readOn_quotes quotes, awaits _ (by simp), readValue_text quotes]
  | _, _, .emptyArray blanks, reader, frames, rest, awaits, ends => by
      rw [List.cons_append, List.append_assoc,
        readOn_punctuation '[' (.opening .array) rfl rfl, awaits _ (by simp),
        readOn_blanks blanks, List.singleton_append,
        readOn_punctuation ']' (.closing .array) rfl rfl]
      rfl
  | _, _, .array blanks outlines further, reader, frames, rest, awaits, ends => by
      rw [List.cons_append, List.append_assoc, List.append_assoc,
        readOn_punctuation '[' (.opening .array) rfl rfl, awaits _ (by simp),
        readOn_blanks blanks]
      exact (outlines.readOn (awaitsValue_itemOrEnd frames) (further.ends rest)).trans
        (further.readOn _ frames rest)
  | _, _, .emptyObject blanks, reader, frames, rest, awaits, ends => by
      rw [List.cons_append, List.append_assoc,
        readOn_punctuation '{' (.opening .object) rfl rfl, awaits _ (by simp),
        readOn_blanks blanks, List.singleton_append,
        readOn_punctuation '}' (.closing .object) rfl rfl]
      rfl
  | _, _, .object blanks member further, reader, frames, rest, awaits, ends => by
      rw [List.cons_append, List.append_assoc, List.append_assoc,
        readOn_punctuation '{' (.opening .object) rfl rfl, awaits _ (by simp),
        readOn_blanks blanks]
      exact (member.readOn (fun _ => rfl) (further.ends rest)).trans
        (further.readOn _ frames rest)

theorem OutlinesItems.readOn : ∀ {items : List Node} {text : List Char},
    OutlinesItems items text →
      ∀ (reversed : List Node) (frames : List Frame) (rest : List Char),
        Grammar.readOn (.afterItem reversed frames) (text ++ rest) =
          Grammar.readOn
            (Reader.deliver (.array (reversed.reverse ++ items) .closed) frames) rest
  | _, _, .close blanks, reversed, frames, rest => by
      rw [List.append_assoc, readOn_blanks blanks, List.singleton_append,
        readOn_punctuation ']' (.closing .array) rfl rfl, List.append_nil]
      rfl
  | _, _, .comma blanks before outlines further, reversed, frames, rest => by
      rw [List.append_assoc, readOn_blanks blanks, List.cons_append, List.append_assoc,
        List.append_assoc, readOn_punctuation ',' .comma rfl rfl, readOn_blanks before]
      have item := (outlines.readOn (awaitsValue_itemAfterComma reversed frames)
        (further.ends rest)).trans (further.readOn _ frames rest)
      simpa [Reader.step] using item

theorem OutlinesMember.readOn : ∀ {member : Lexeme String × Node} {text : List Char},
    OutlinesMember member text →
      ∀ {reader : Reader} {reversed : List (Lexeme String × Node)} {frames : List Frame}
        {rest : List Char},
        (∀ lexeme, reader.step (.text lexeme) = Reader.readKey reversed frames (.text lexeme)) →
          Ends rest →
            Grammar.readOn reader (text ++ rest) =
              Grammar.readOn (.afterMember (member :: reversed) frames) rest
  | _, _, .of quotes blanks before outlines, reader, reversed, frames, rest, awaits, ends => by
      rw [List.append_assoc, readOn_quotes quotes, awaits, readKey_text quotes, List.append_assoc,
        readOn_blanks blanks, List.cons_append, List.append_assoc,
        readOn_punctuation ':' .colon rfl rfl, readOn_blanks before]
      exact outlines.readOn (awaitsValue_valueDue _) ends

theorem OutlinesMembers.readOn : ∀ {members : List (Lexeme String × Node)} {text : List Char},
    OutlinesMembers members text →
      ∀ (reversed : List (Lexeme String × Node)) (frames : List Frame) (rest : List Char),
        Grammar.readOn (.afterMember reversed frames) (text ++ rest) =
          Grammar.readOn
            (Reader.deliver (.object (reversed.reverse ++ members) .closed) frames) rest
  | _, _, .close blanks, reversed, frames, rest => by
      rw [List.append_assoc, readOn_blanks blanks, List.singleton_append,
        readOn_punctuation '}' (.closing .object) rfl rfl, List.append_nil]
      rfl
  | _, _, .comma blanks before member further, reversed, frames, rest => by
      rw [List.append_assoc, readOn_blanks blanks, List.cons_append, List.append_assoc,
        List.append_assoc, readOn_punctuation ',' .comma rfl rfl, readOn_blanks before]
      have first : Grammar.readOn (.keyAfterComma reversed frames) _ = _ :=
        (member.readOn (fun _ => rfl) (further.ends rest)).trans (further.readOn _ frames rest)
      simpa [Reader.step] using first

end

/-- A document is read as the tree that it carries, and nothing is left behind it. -/
theorem Carries.ofBytes {node : Node} {body : List UInt8} (carries : Carries node body) :
    Document.ofBytes body = ⟨node, true⟩ := by
  cases carries with
  | @of before text after blanksBefore outlines blanksAfter =>
      rw [Document.ofBytes, Utf8.glyphs_encode, Document.ofTokens]
      have read : readOn (.valueDue []) (before ++ (text ++ after)) = .complete node := by
        rw [readOn_blanks blanksBefore,
          outlines.readOn (awaitsValue_valueDue []) blanksAfter.ends]
        have nothing := readOn_blanks blanksAfter (.complete node) []
        simpa [readOn, Token.ofGlyphs, Reader.deliver] using nothing
      rw [readOn] at read
      rw [read]
      rfl

theorem Encodes.ofBytes {tree : SyntaxTree} {body : List UInt8} (encodes : Encodes tree body) :
    Document.ofBytes body = ⟨tree.node, true⟩ :=
  encodes.carries.ofBytes

end Grammar

end MetricWatch.Json
