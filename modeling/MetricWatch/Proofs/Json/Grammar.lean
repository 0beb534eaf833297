import MetricWatch.Json.Value
import MetricWatch.Proofs.Json.NumberReading

namespace MetricWatch.Json

/-- What a document says when nothing is wrong with it, with the members of its objects
in the order of the text. -/
inductive SyntaxTree where
  | literal (atom : Literal)
  | text (content : String)
  | array (items : List SyntaxTree)
  | object (members : List (String × SyntaxTree))

/-! The texts that a tree is spelled by. They are those of the JSON grammar, except that
every escape must stand for a character and every number be within the limits of its reader. -/

namespace Grammar

def Blanks (text : List Char) : Prop :=
  ∀ character ∈ text, Token.isBlank (some character) = true

def Digits (text : List Char) : Prop :=
  ∀ character ∈ text, isDecimalDigit character = true

inductive Whole : List Char → Prop
  | zero : Whole ['0']
  | digits {first : Char} {rest : List Char} :
      first ≠ '0' → Digits (first :: rest) → Whole (first :: rest)

inductive Fraction : Option (List Char) → List Char → Prop
  | absent : Fraction none []
  | present {digits : List Char} :
      digits ≠ [] → Digits digits → Fraction (some digits) ('.' :: digits)

inductive Sign : Int → List Char → Prop
  | absent : Sign 1 []
  | plus : Sign 1 ['+']
  | minus : Sign (-1) ['-']

inductive Exponent : Option Int → List Char → Prop
  | absent : Exponent none []
  | present {mark : Char} {sign : Int} {signText digits : List Char} :
      mark = 'e' ∨ mark = 'E' → Sign sign signText → digits ≠ [] → Digits digits →
        Exponent (some (sign * digitsValue digits)) (mark :: (signText ++ digits))

inductive Numeral : Spelling → List Char → Prop
  | of {negative : Bool} {whole fractionText exponentText : List Char}
      {fraction : Option (List Char)} {exponent : Option Int} :
      Whole whole → Fraction fraction fractionText → Exponent exponent exponentText →
        Numeral ⟨negative, whole, fraction, exponent⟩
          ((if negative then ['-'] else []) ++ (whole ++ (fractionText ++ exponentText)))

/-- A character of a text as it stands between quotes. -/
inductive Piece : Char → List Char → Prop
  | plain {character : Char} : character ≠ '"' → character ≠ '\\' →
      Quoted.isControl character = false → Piece character [character]
  | letter {letter character : Char} : Quoted.ofLetter? letter = some character →
      Piece character ['\\', letter]
  | unit {first second third fourth : Char} {unit : Nat} :
      Quoted.codeUnit? first second third fourth = some unit →
        Quoted.isLeadingSurrogate unit = false → Quoted.isTrailingSurrogate unit = false →
          Piece (Char.ofNat unit) ['\\', 'u', first, second, third, fourth]
  | pair {first second third fourth fifth sixth seventh eighth : Char}
      {leading trailing : Nat} :
      Quoted.codeUnit? first second third fourth = some leading →
        Quoted.isLeadingSurrogate leading = true →
          Quoted.codeUnit? fifth sixth seventh eighth = some trailing →
            Quoted.isTrailingSurrogate trailing = true →
              Piece (Quoted.pairedCharacter leading trailing)
                ['\\', 'u', first, second, third, fourth, '\\', 'u', fifth, sixth, seventh, eighth]

inductive Content : List Char → List Char → Prop
  | nil : Content [] []
  | cons {character : Char} {content piece rest : List Char} :
      Piece character piece → Content content rest → Content (character :: content) (piece ++ rest)

inductive Quotation : String → List Char → Prop
  | of {content inner : List Char} :
      Content content inner → Quotation (String.ofList content) ('"' :: (inner ++ ['"']))

/-- A text without anything to escape stands between the quotes as it is. -/
theorem Quotation.ofPlain (content : String)
    (plain : ∀ character ∈ content.toList, character ≠ '"' ∧ character ≠ '\\' ∧
      Quoted.isControl character = false) :
    Quotation content ('"' :: (content.toList ++ ['"'])) := by
  have spelled : ∀ text : List Char, (∀ character ∈ text, character ≠ '"' ∧ character ≠ '\\' ∧
      Quoted.isControl character = false) → Content text text := by
    intro text plain
    induction text with
    | nil => exact .nil
    | cons first rest induction =>
        have ⟨notQuote, notBackslash, notControl⟩ := plain first List.mem_cons_self
        exact .cons (.plain notQuote notBackslash notControl)
          (induction fun character member => plain character (List.mem_cons_of_mem first member))
  have quoted := Quotation.of (spelled content.toList plain)
  rw [String.ofList_toList] at quoted
  exact quoted

inductive Atom : Literal → List Char → Prop
  | null : Atom .null ['n', 'u', 'l', 'l']
  | yes : Atom (.bool true) ['t', 'r', 'u', 'e']
  | no : Atom (.bool false) ['f', 'a', 'l', 's', 'e']
  | number {spelling : Spelling} {number : Number} {text : List Char} :
      Numeral spelling text → spelling.Reads number → Atom (.number number) text

mutual

inductive Spells : SyntaxTree → List Char → Prop
  | literal {literal : Literal} {text : List Char} :
      Atom literal text → Spells (.literal literal) text
  | text {content : String} {text : List Char} :
      Quotation content text → Spells (.text content) text
  | emptyArray {blank : List Char} : Blanks blank → Spells (.array []) ('[' :: (blank ++ [']']))
  | array {item : SyntaxTree} {items : List SyntaxTree} {blank text rest : List Char} :
      Blanks blank → Spells item text → FurtherItems items rest →
        Spells (.array (item :: items)) ('[' :: (blank ++ (text ++ rest)))
  | emptyObject {blank : List Char} :
      Blanks blank → Spells (.object []) ('{' :: (blank ++ ['}']))
  | object {name : String} {value : SyntaxTree} {members : List (String × SyntaxTree)}
      {blank text rest : List Char} :
      Blanks blank → SpellsMember name value text → FurtherMembers members rest →
        Spells (.object ((name, value) :: members)) ('{' :: (blank ++ (text ++ rest)))

/-- What follows an item up to the end of its array. -/
inductive FurtherItems : List SyntaxTree → List Char → Prop
  | close {blank : List Char} : Blanks blank → FurtherItems [] (blank ++ [']'])
  | comma {item : SyntaxTree} {items : List SyntaxTree} {blank before text rest : List Char} :
      Blanks blank → Blanks before → Spells item text → FurtherItems items rest →
        FurtherItems (item :: items) (blank ++ ',' :: (before ++ (text ++ rest)))

inductive SpellsMember : String → SyntaxTree → List Char → Prop
  | of {name : String} {value : SyntaxTree} {key blank before text : List Char} :
      Quotation name key → Blanks blank → Blanks before → Spells value text →
        SpellsMember name value (key ++ (blank ++ ':' :: (before ++ text)))

inductive FurtherMembers : List (String × SyntaxTree) → List Char → Prop
  | close {blank : List Char} : Blanks blank → FurtherMembers [] (blank ++ ['}'])
  | comma {name : String} {value : SyntaxTree} {members : List (String × SyntaxTree)}
      {blank before text rest : List Char} :
      Blanks blank → Blanks before → SpellsMember name value text →
        FurtherMembers members rest →
          FurtherMembers ((name, value) :: members) (blank ++ ',' :: (before ++ (text ++ rest)))

end

/-- A whole document, in the encoding that documents are sent in. -/
inductive Encodes : SyntaxTree → List UInt8 → Prop
  | of {tree : SyntaxTree} {before text after : List Char} :
      Blanks before → Spells tree text → Blanks after →
        Encodes tree (Utf8.encode (before ++ (text ++ after)))

end Grammar

namespace SyntaxTree

/-! A tree without its faults as the reader of documents builds it. -/

def faultless {Content : Type} (content : Content) : Lexeme Content := ⟨.ok content, none⟩

mutual

def node : SyntaxTree → Node
  | .literal atom => .literal (faultless atom)
  | .text content => .text (faultless content)
  | .array items => .array (itemNodes items) .closed
  | .object members => .object (memberNodes members) .closed

def itemNodes : List SyntaxTree → List Node
  | [] => []
  | item :: items => item.node :: itemNodes items

def memberNodes : List (String × SyntaxTree) → List (Lexeme String × Node)
  | [] => []
  | (name, value) :: members => (faultless name, value.node) :: memberNodes members

end

end SyntaxTree

end MetricWatch.Json
