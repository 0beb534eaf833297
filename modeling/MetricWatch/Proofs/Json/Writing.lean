import MetricWatch.Proofs.Json.Faultless
import MetricWatch.Proofs.Json.Reading
import MetricWatch.Proofs.Lookup
import MetricWatch.Proofs.Number.Whole

namespace MetricWatch.Json

/-! A value is written in one of the spellings of the grammar, so that the tree that stands for
it is read again. Only fractions are left out here: their spelling is another matter. -/

namespace SyntaxTree

mutual

def ofValue : Value → SyntaxTree
  | .null => .literal .null
  | .bool value => .literal (.bool value)
  | .number value => .literal (.number value)
  | .text content => .text content
  | .array items => .array (ofItems items)
  | .object members => .object (ofMembers members)

def ofItems : List Value → List SyntaxTree
  | [] => []
  | item :: items => ofValue item :: ofItems items

def ofMembers : List (String × Value) → List (String × SyntaxTree)
  | [] => []
  | (name, value) :: members => (name, ofValue value) :: ofMembers members

end

theorem ofItems_eq_map (items : List Value) : ofItems items = items.map ofValue := by
  induction items with
  | nil => rfl
  | cons first items induction => rw [ofItems, induction, List.map_cons]

theorem ofMembers_eq_map (members : List (String × Value)) :
    ofMembers members = members.map fun member => (member.1, ofValue member.2) := by
  induction members with
  | nil => rfl
  | cons first members induction => rw [ofMembers, induction, List.map_cons]

end SyntaxTree

/-- No number of a value is a fraction, and each fits into 64 bits. -/
inductive Value.IsWhole : Value → Prop
  | null : IsWhole .null
  | bool (value : Bool) : IsWhole (.bool value)
  | number {value : Int} : -(UInt64.size / 2 : Nat) ≤ value → value < UInt64.size →
      IsWhole (.number (.whole value))
  | text (content : String) : IsWhole (.text content)
  | array {items : List Value} : (∀ item ∈ items, IsWhole item) → IsWhole (.array items)
  | object {members : List (String × Value)} :
      (∀ member ∈ members, IsWhole member.2) → IsWhole (.object members)

namespace Grammar

/-! Texts. -/

theorem codeUnit?_of_isControl {character : Char} (isControl : Quoted.isControl character = true) :
    Quoted.codeUnit? (some '0') (some '0') (some (Nat.digitChar (character.toNat / 16)))
      (some (Nat.digitChar (character.toNat % 16))) = some character.toNat := by
  have every : ∀ code : Fin 32, Quoted.codeUnit? (some '0') (some '0')
      (some (Nat.digitChar (code.val / 16))) (some (Nat.digitChar (code.val % 16))) =
        some code.val := by
    decide +kernel
  exact every ⟨character.toNat, of_decide_eq_true isControl⟩

theorem piece_escape (character : Char) : Piece character (Quoted.escape character) := by
  rw [Quoted.escape]
  cases isLetter : Quoted.letterOf? character with
  | some letter => exact .letter (Quoted.ofLetter?_of_letterOf? isLetter)
  | none =>
      dsimp only
      split
      · rename_i isControl
        have below : character.toNat < 32 := of_decide_eq_true isControl
        have leading : Quoted.isLeadingSurrogate character.toNat = false := by
          simp only [Quoted.isLeadingSurrogate, Bool.and_eq_false_iff, decide_eq_false_iff_not]
          omega
        have trailing : Quoted.isTrailingSurrogate character.toNat = false := by
          simp only [Quoted.isTrailingSurrogate, Bool.and_eq_false_iff, decide_eq_false_iff_not]
          omega
        have piece : Piece (Char.ofNat character.toNat) _ :=
          .unit (codeUnit?_of_isControl isControl) leading trailing
        rwa [Char.ofNat_toNat] at piece
      · rename_i notControl
        refine .plain ?_ ?_ (Bool.eq_false_iff.mpr notControl)
        · intro isQuote
          subst isQuote
          cases isLetter
        · intro isBackslash
          subst isBackslash
          cases isLetter

theorem content_escape (text : List Char) : Content text (text.flatMap Quoted.escape) := by
  induction text with
  | nil => exact .nil
  | cons character rest induction => exact .cons (piece_escape character) induction

theorem quotation_write (content : String) : Quotation content (Quoted.write content.toList) := by
  have quotation := Quotation.of (content_escape content.toList)
  rwa [String.ofList_toList] at quotation

/-! Whole numbers. -/

theorem whole_decimalDigits (value : Nat) : Whole (decimalDigits value) := by
  rcases Nat.eq_zero_or_pos value with rfl | positive
  · exact .zero
  · have notZero := head?_decimalDigits_ne positive
    have areDigits : Digits (decimalDigits value) := fun _ => isDecimalDigit_of_mem
    cases digits : decimalDigits value with
    | nil => exact absurd digits Nat.toDigits_ne_nil
    | cons first rest =>
        rw [digits] at notZero areDigits
        exact .digits (fun same => notZero (same ▸ rfl)) areDigits

theorem numeral_decimalDigits (negative : Bool) (value : Nat) :
    Numeral ⟨negative, decimalDigits value, none, none⟩
      ((if negative then ['-'] else []) ++ decimalDigits value) := by
  have numeral : Numeral ⟨negative, decimalDigits value, none, none⟩ _ :=
    .of (whole_decimalDigits value) .absent .absent
  rwa [List.append_nil, List.append_nil] at numeral

theorem atom_integerText {value : Int} (least : -(UInt64.size / 2 : Nat) ≤ value)
    (most : value < UInt64.size) : Atom (.number (.whole value)) (integerText value).toList := by
  rw [integerText]
  split
  · rename_i negative
    have size : -(value.natAbs : Int) = value := by omega
    have positive : 0 < value.natAbs := by omega
    have bounded : value.natAbs ≤ UInt64.size / 2 := by omega
    rw [← digitsValue_decimalDigits value.natAbs] at positive bounded
    have reads : Spelling.Reads ⟨true, decimalDigits value.natAbs, none, none⟩ _ :=
      .whole (.negative rfl rfl rfl positive bounded)
    have text : ("-" ++ decimalText value.natAbs).toList = ['-'] ++ decimalDigits value.natAbs := by
      rw [String.toList_append, decimalText]
      exact congrArg (['-'] ++ ·) String.toList_ofList
    rw [digitsValue_decimalDigits, size] at reads
    rw [text]
    exact .number (numeral_decimalDigits true value.natAbs) reads
  · rename_i notNegative
    have size : (value.natAbs : Int) = value := by omega
    have bounded : value.natAbs < UInt64.size := by omega
    rw [← digitsValue_decimalDigits value.natAbs] at bounded
    have reads : Spelling.Reads ⟨false, decimalDigits value.natAbs, none, none⟩ _ :=
      .whole (.natural rfl rfl rfl bounded)
    rw [digitsValue_decimalDigits, size] at reads
    rw [decimalText, String.toList_ofList]
    exact .number (numeral_decimalDigits false value.natAbs) reads

/-! Values. Nothing stands between their parts. -/

theorem noBlanks : Blanks [] :=
  fun _ member => nomatch member

theorem spellsMember_write {name : String} {tree : SyntaxTree} {text : List Char}
    (spells : Spells tree text) :
    SpellsMember name tree (Quoted.write name.toList ++ ':' :: text) :=
  .of (quotation_write name) noBlanks noBlanks spells

mutual

theorem spells_write : ∀ value : Value, value.IsWhole →
    Spells (SyntaxTree.ofValue value) value.write
  | .null, _ => .literal .null
  | .bool true, _ => .literal .yes
  | .bool false, _ => .literal .no
  | .number _, .number least most => .literal (atom_integerText least most)
  | .text content, _ => .text (quotation_write content)
  | .array [], _ => .emptyArray noBlanks
  | .array (first :: items), .array areWhole => by
      rcases furtherItems_write first items areWhole with ⟨rest, written, further⟩
      rw [Value.write, written]
      exact .array noBlanks (spells_write first (areWhole first List.mem_cons_self)) further
  | .object [], _ => .emptyObject noBlanks
  | .object ((name, value) :: members), .object areWhole => by
      rcases furtherMembers_write name value members areWhole with ⟨rest, written, further⟩
      have spells := spells_write value (areWhole (name, value) List.mem_cons_self)
      rw [Value.write, written]
      exact .object noBlanks (spellsMember_write spells) further

theorem furtherItems_write : ∀ (first : Value) (items : List Value),
    (∀ item ∈ first :: items, item.IsWhole) →
      ∃ rest, Value.writeItems (first :: items) = first.write ++ rest ∧
        FurtherItems (SyntaxTree.ofItems items) rest
  | first, [], _ => ⟨[']'], rfl, .close noBlanks⟩
  | first, second :: items, areWhole => by
      have others : ∀ item ∈ second :: items, item.IsWhole :=
        fun item member => areWhole item (List.mem_cons_of_mem first member)
      rcases furtherItems_write second items others with ⟨rest, written, further⟩
      refine ⟨',' :: (second.write ++ rest), ?_, ?_⟩
      · rw [Value.writeItems, written]
        exact List.cons_ne_nil second items
      · exact .comma noBlanks noBlanks
          (spells_write second (others second List.mem_cons_self)) further

theorem furtherMembers_write : ∀ (name : String) (value : Value)
    (members : List (String × Value)), (∀ member ∈ (name, value) :: members, member.2.IsWhole) →
      ∃ rest, Value.writeMembers ((name, value) :: members) =
          Quoted.write name.toList ++ ':' :: value.write ++ rest ∧
        FurtherMembers (SyntaxTree.ofMembers members) rest
  | name, value, [], _ => ⟨['}'], by simp [Value.writeMembers], .close noBlanks⟩
  | name, value, (other, second) :: members, areWhole => by
      have others : ∀ member ∈ (other, second) :: members, member.2.IsWhole :=
        fun member isMember => areWhole member (List.mem_cons_of_mem (name, value) isMember)
      rcases furtherMembers_write other second members others with ⟨rest, written, further⟩
      have spells := spells_write second (others (other, second) List.mem_cons_self)
      refine ⟨',' :: (Quoted.write other.toList ++ ':' :: second.write ++ rest), ?_, ?_⟩
      · rw [Value.writeMembers, written]
        · simp
        · exact List.cons_ne_nil (other, second) members
      · exact .comma noBlanks noBlanks (spellsMember_write spells) further

end

theorem encodes_write {value : Value} (isWhole : value.IsWhole) :
    Encodes (SyntaxTree.ofValue value) (Utf8.encode value.write) := by
  have encodes := Encodes.of noBlanks (spells_write value isWhole) noBlanks
  rwa [List.nil_append, List.append_nil] at encodes

/-- What is written of a value is read as the tree that stands for it. -/
theorem ofBytes_write {value : Value} (isWhole : value.IsWhole) :
    Document.ofBytes (Utf8.encode value.write) = ⟨(SyntaxTree.ofValue value).node, true⟩ :=
  (encodes_write isWhole).ofBytes

end Grammar

end MetricWatch.Json
