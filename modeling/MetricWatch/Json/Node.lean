import MetricWatch.Json.Token

namespace MetricWatch.Json

/-! The tree of a document, faults included. A fault stands in the tree where it
was met, and nothing follows it. So a reader of the tree who goes through it in
the order of the text reports the first thing that is wrong with the text or
with what it says. -/

/-- How a list of items or members ends: closed, or at a fault between them, or
because the last of them could not be passed over. -/
inductive Ending where
  | closed
  | trailingComma
  | endAfterComma
  | keyIsNotText
  | missingSeparator
  | unfinished
  | interrupted
deriving DecidableEq

/-- A node of the tree. `absent` stands where a value should be but cannot be read. -/
inductive Node where
  | literal (lexeme : Lexeme Literal)
  | text (lexeme : Lexeme String)
  | absent (fault : Fault)
  | array (items : List Node) (ending : Ending)
  | object (members : List (Lexeme String × Node)) (ending : Ending)

/-- The tree is built from the parts of the text one by one. What has been read
of the arrays and objects around the current place is kept in frames, the
innermost one first, each with its items or members so far in reverse. -/
inductive Frame where
  | array (reversed : List Node)
  | object (reversed : List (Lexeme String × Node)) (key : Lexeme String)

namespace Frame

def close (frame : Frame) (node : Node) (ending : Ending) : Node :=
  match frame with
  | .array reversed => .array (node :: reversed).reverse ending
  | .object reversed key => .object ((key, node) :: reversed).reverse ending

end Frame

inductive Reader where
  | valueDue (frames : List Frame)
  | itemOrEnd (frames : List Frame)
  | itemAfterComma (reversed : List Node) (frames : List Frame)
  | keyOrEnd (frames : List Frame)
  | keyAfterComma (reversed : List (Lexeme String × Node)) (frames : List Frame)
  | colonDue (reversed : List (Lexeme String × Node)) (key : Lexeme String)
      (frames : List Frame)
  | afterItem (reversed : List Node) (frames : List Frame)
  | afterMember (reversed : List (Lexeme String × Node)) (frames : List Frame)
  | complete (node : Node)
  | trailing (node : Node)
  | stopped (node : Node)

namespace Reader

/-- A node takes its place in the innermost frame, or is the whole document. -/
def deliver (node : Node) : List Frame → Reader
  | [] => .complete node
  | .array reversed :: frames => .afterItem (node :: reversed) frames
  | .object reversed key :: frames => .afterMember ((key, node) :: reversed) frames

/-- A node that cannot be passed over ends everything around it. -/
def interrupt (node : Node) (frames : List Frame) : Reader :=
  .stopped (frames.foldl (fun inner frame => frame.close inner .interrupted) node)

def place (skimmed : Option Fault) (node : Node) (frames : List Frame) : Reader :=
  if skimmed.isNone then deliver node frames else interrupt node frames

def readValue (frames : List Frame) : Token → Reader
  | .opening .array => .itemOrEnd frames
  | .opening .object => .keyOrEnd frames
  | .text lexeme => place lexeme.skimmed (.text lexeme) frames
  | .literal lexeme => place lexeme.skimmed (.literal lexeme) frames
  | .closing _ | .comma | .colon | .stray => interrupt (.absent .expectedValue) frames

def readKey (reversed : List (Lexeme String × Node)) (frames : List Frame) :
    Token → Reader
  | .text lexeme =>
      match lexeme.skimmed with
      | none => .colonDue reversed lexeme frames
      | some fault => interrupt (.absent fault) (.object reversed lexeme :: frames)
  | _ => interrupt (.object reversed.reverse .keyIsNotText) frames

def step (reader : Reader) (token : Token) : Reader :=
  match reader with
  | .valueDue frames => readValue frames token
  | .itemOrEnd frames =>
      match token with
      | .closing .array => deliver (.array [] .closed) frames
      | token => readValue (.array [] :: frames) token
  | .itemAfterComma reversed frames =>
      match token with
      | .closing .array => interrupt (.array reversed.reverse .trailingComma) frames
      | token => readValue (.array reversed :: frames) token
  | .keyOrEnd frames =>
      match token with
      | .closing .object => deliver (.object [] .closed) frames
      | token => readKey [] frames token
  | .keyAfterComma reversed frames =>
      match token with
      | .closing .object => interrupt (.object reversed.reverse .trailingComma) frames
      | token => readKey reversed frames token
  | .colonDue reversed key frames =>
      match token with
      | .colon => .valueDue (.object reversed key :: frames)
      | _ => interrupt (.absent .expectedColon) (.object reversed key :: frames)
  | .afterItem reversed frames =>
      match token with
      | .comma => .itemAfterComma reversed frames
      | .closing .array => deliver (.array reversed.reverse .closed) frames
      | _ => interrupt (.array reversed.reverse .missingSeparator) frames
  | .afterMember reversed frames =>
      match token with
      | .comma => .keyAfterComma reversed frames
      | .closing .object => deliver (.object reversed.reverse .closed) frames
      | _ => interrupt (.object reversed.reverse .missingSeparator) frames
  | .complete node => .trailing node
  | .trailing node => .trailing node
  | .stopped node => .stopped node

/-- What the end of the text makes of a document that is still open. -/
def atEnd : Reader → Reader
  | .valueDue frames => interrupt (.absent .endInValue) frames
  | .itemOrEnd frames => interrupt (.array [] .unfinished) frames
  | .itemAfterComma reversed frames =>
      interrupt (.array reversed.reverse .endAfterComma) frames
  | .keyOrEnd frames => interrupt (.object [] .unfinished) frames
  | .keyAfterComma reversed frames =>
      interrupt (.object reversed.reverse .endAfterComma) frames
  | .colonDue reversed key frames =>
      interrupt (.absent .endInObject) (.object reversed key :: frames)
  | .afterItem reversed frames => interrupt (.array reversed.reverse .unfinished) frames
  | .afterMember reversed frames => interrupt (.object reversed.reverse .unfinished) frames
  | finished => finished

end Reader

/-- A document is a tree, and possibly characters behind it that do not belong
there. -/
structure Document where
  root : Node
  isLast : Bool

namespace Document

def ofReader : Reader → Document
  | .complete node => ⟨node, true⟩
  | .stopped node => ⟨node, true⟩
  | .trailing node => ⟨node, false⟩
  | unfinished =>
      match unfinished.atEnd with
      | .stopped node => ⟨node, true⟩
      | _ => ⟨.absent .endInValue, true⟩

def ofTokens (tokens : List Token) : Document :=
  ofReader (tokens.foldl Reader.step (.valueDue []))

def ofBytes (bytes : List UInt8) : Document :=
  ofTokens (Token.ofGlyphs (Utf8.glyphs bytes))

end Document

end MetricWatch.Json
