import MetricWatch.Proofs.Json.Grammar

namespace MetricWatch.Json

/-! The whole grammar of documents. An escape may stand for half a pair of surrogates, and a
number may be beyond all the finite ones. Such a part has no value, but it can be passed over. -/

namespace Grammar

/-- A character or an escape between quotes, whatever the escape stands for. -/
inductive Mark : List Char → Prop
  | plain {character : Char} : character ≠ '"' → character ≠ '\\' →
      Quoted.isControl character = false → Mark [character]
  | letter {letter : Char} : (Quoted.ofLetter? letter).isSome → Mark ['\\', letter]
  | unit {first second third fourth : Char} :
      (Quoted.codeUnit? first second third fourth).isSome →
        Mark ['\\', 'u', first, second, third, fourth]

inductive Marks : List Char → Prop
  | nil : Marks []
  | cons {mark rest : List Char} : Mark mark → Marks rest → Marks (mark ++ rest)

/-- Half a pair of surrogates is written down, but stands for nothing. -/
theorem marks_half : Marks "\\ud800".toList := .cons (.unit rfl) .nil

/-- What stands between quotes, or the first fault in it. -/
def contentOf (inner : List Char) : Except Fault String :=
  (Quoted.read ((inner ++ ['"']).map some)).map (·.1)

inductive Quotes : Lexeme String → List Char → Prop
  | content {content : String} {text : List Char} :
      Quotation content text → Quotes (SyntaxTree.faultless content) text
  | marks {inner : List Char} :
      Marks inner → Quotes ⟨contentOf inner, none⟩ ('"' :: (inner ++ ['"']))

inductive Tells : Lexeme Literal → List Char → Prop
  | atom {literal : Literal} {text : List Char} :
      Atom literal text → Tells (SyntaxTree.faultless literal) text
  | numeral {spelling : Spelling} {text : List Char} :
      Numeral spelling text → Tells ⟨spelling.number.map .number, none⟩ text

mutual

inductive Outlines : Node → List Char → Prop
  | literal {lexeme : Lexeme Literal} {text : List Char} :
      Tells lexeme text → Outlines (.literal lexeme) text
  | text {lexeme : Lexeme String} {text : List Char} :
      Quotes lexeme text → Outlines (.text lexeme) text
  | emptyArray {blank : List Char} :
      Blanks blank → Outlines (.array [] .closed) ('[' :: (blank ++ [']']))
  | array {item : Node} {items : List Node} {blank text rest : List Char} :
      Blanks blank → Outlines item text → OutlinesItems items rest →
        Outlines (.array (item :: items) .closed) ('[' :: (blank ++ (text ++ rest)))
  | emptyObject {blank : List Char} :
      Blanks blank → Outlines (.object [] .closed) ('{' :: (blank ++ ['}']))
  | object {member : Lexeme String × Node} {members : List (Lexeme String × Node)}
      {blank text rest : List Char} :
      Blanks blank → OutlinesMember member text → OutlinesMembers members rest →
        Outlines (.object (member :: members) .closed) ('{' :: (blank ++ (text ++ rest)))

/-- What follows an item up to the end of its array. -/
inductive OutlinesItems : List Node → List Char → Prop
  | close {blank : List Char} : Blanks blank → OutlinesItems [] (blank ++ [']'])
  | comma {item : Node} {items : List Node} {blank before text rest : List Char} :
      Blanks blank → Blanks before → Outlines item text → OutlinesItems items rest →
        OutlinesItems (item :: items) (blank ++ ',' :: (before ++ (text ++ rest)))

inductive OutlinesMember : Lexeme String × Node → List Char → Prop
  | of {key : Lexeme String} {value : Node} {name blank before text : List Char} :
      Quotes key name → Blanks blank → Blanks before → Outlines value text →
        OutlinesMember (key, value) (name ++ (blank ++ ':' :: (before ++ text)))

inductive OutlinesMembers : List (Lexeme String × Node) → List Char → Prop
  | close {blank : List Char} : Blanks blank → OutlinesMembers [] (blank ++ ['}'])
  | comma {member : Lexeme String × Node} {members : List (Lexeme String × Node)}
      {blank before text rest : List Char} :
      Blanks blank → Blanks before → OutlinesMember member text →
        OutlinesMembers members rest →
          OutlinesMembers (member :: members) (blank ++ ',' :: (before ++ (text ++ rest)))

end

/-- A whole document, in the encoding that documents are sent in. -/
inductive Carries : Node → List UInt8 → Prop
  | of {node : Node} {before text after : List Char} :
      Blanks before → Outlines node text → Blanks after →
        Carries node (Utf8.encode (before ++ (text ++ after)))

/-! The texts of a tree without faults are among them. -/

mutual

theorem Spells.outlines : ∀ {tree : SyntaxTree} {text : List Char}, Spells tree text →
    Outlines tree.node text
  | _, _, .literal atom => .literal (.atom atom)
  | _, _, .text quotation => .text (.content quotation)
  | _, _, .emptyArray blanks => .emptyArray blanks
  | _, _, .array blanks spells further => .array blanks spells.outlines further.outlines
  | _, _, .emptyObject blanks => .emptyObject blanks
  | _, _, .object blanks member further => .object blanks member.outlines further.outlines

theorem FurtherItems.outlines : ∀ {items : List SyntaxTree} {text : List Char},
    FurtherItems items text → OutlinesItems (SyntaxTree.itemNodes items) text
  | _, _, .close blanks => .close blanks
  | _, _, .comma blanks before spells further =>
      .comma blanks before spells.outlines further.outlines

theorem SpellsMember.outlines : ∀ {name : String} {value : SyntaxTree} {text : List Char},
    SpellsMember name value text → OutlinesMember (SyntaxTree.faultless name, value.node) text
  | _, _, _, .of quotation blanks before spells =>
      .of (.content quotation) blanks before spells.outlines

theorem FurtherMembers.outlines : ∀ {members : List (String × SyntaxTree)} {text : List Char},
    FurtherMembers members text → OutlinesMembers (SyntaxTree.memberNodes members) text
  | _, _, .close blanks => .close blanks
  | _, _, .comma blanks before member further =>
      .comma blanks before member.outlines further.outlines

end

theorem Encodes.carries {tree : SyntaxTree} {body : List UInt8} (encodes : Encodes tree body) :
    Carries tree.node body := by
  cases encodes with
  | of before spells after => exact .of before spells.outlines after

/-! Nothing is met where a document is only passed over. -/

theorem Quotes.skimmed {lexeme : Lexeme String} {text : List Char} (quotes : Quotes lexeme text) :
    lexeme.skimmed = none := by
  cases quotes <;> rfl

theorem Tells.skimmed {lexeme : Lexeme Literal} {text : List Char} (tells : Tells lexeme text) :
    lexeme.skimmed = none := by
  cases tells <;> rfl

mutual

theorem Outlines.skimFault? : ∀ {node : Node} {text : List Char}, Outlines node text →
    node.skimFault? = none
  | _, _, .literal tells => tells.skimmed
  | _, _, .text quotes => quotes.skimmed
  | _, _, .emptyArray _ | _, _, .emptyObject _ => rfl
  | _, _, .array _ outlines further => by
      rw [Node.skimFault?, Node.skimItems, outlines.skimFault?, further.skimFault?]
      rfl
  | _, _, .object _ member further => by
      rw [Node.skimFault?, Node.skimMembers, member.skimFault?.1, member.skimFault?.2,
        further.skimFault?]
      rfl

theorem OutlinesItems.skimFault? : ∀ {items : List Node} {text : List Char},
    OutlinesItems items text → Node.skimItems items = none
  | _, _, .close _ => rfl
  | _, _, .comma _ _ outlines further => by
      rw [Node.skimItems, outlines.skimFault?, further.skimFault?]
      rfl

theorem OutlinesMember.skimFault? : ∀ {member : Lexeme String × Node} {text : List Char},
    OutlinesMember member text → member.1.skimmed = none ∧ member.2.skimFault? = none
  | _, _, .of quotes _ _ outlines => ⟨quotes.skimmed, outlines.skimFault?⟩

theorem OutlinesMembers.skimFault? : ∀ {members : List (Lexeme String × Node)} {text : List Char},
    OutlinesMembers members text → Node.skimMembers members = none
  | _, _, .close _ => rfl
  | _, _, .comma _ _ member further => by
      rw [Node.skimMembers, member.skimFault?.1, member.skimFault?.2, further.skimFault?]
      rfl

end

theorem Carries.skimFault? {node : Node} {body : List UInt8} (carries : Carries node body) :
    node.skimFault? = none := by
  cases carries with
  | of _ outlines _ => exact outlines.skimFault?

end Grammar

end MetricWatch.Json
