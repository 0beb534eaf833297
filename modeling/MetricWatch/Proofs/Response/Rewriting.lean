import Mathlib.Logic.Relation
import MetricWatch.Proofs.Json.Writing
import MetricWatch.Proofs.Response.Acceptance
import MetricWatch.Proofs.Response.Layout

namespace MetricWatch.Response

open Json

/-! The samples of an answer do not depend on how it is written. -/

/-! An item is read from a value. All its fields are read, and of those with the same name the
last one counts. -/

namespace Item

def layout : Layout where
  names := itemNames
  optional := ["metric"]
  absent := .record []
  Within := fun _ _ _ => False
  Admits := fun value => ∃ tree : SyntaxTree, value = tree.node ∧ tree.depth ≤ 123

def IsAt (node : Node) (item : Item) : Prop :=
  ∃ value, node.toValue 124 = .ok value ∧ ofValue value = .ok item

def IsReadable (node : Node) : Prop :=
  ∃ value, node.toValue 123 = .ok value

def lastValue? (nodes : List Node) : Option Value :=
  nodes.getLast?.bind fun node => (node.toValue 123).toOption

/-- What the value under a name makes of an item. -/
def Has (item : Item) (name : String) (value : Option Value) : Prop :=
  match name with
  | "metric" =>
      match value with
      | none => item.metric = []
      | some metric => readMetric metric = .ok item.metric
  | "value" => ∃ pair, value = some pair ∧ readPair pair = .ok (item.seconds, item.value)
  | _ => True

def Asserts (item : Item) (name : String) (nodes : List Node) : Prop :=
  (∀ node ∈ nodes, IsReadable node) ∧ item.Has name (lastValue? nodes)

theorem lastValue?_named {members : List (String × Node)} {pairs : List (String × Value)}
    (values : members.mapM (Node.memberValue 123) = .ok pairs) (name : String) :
    lastValue? (named name members) = lastNamed? name pairs := by
  have same : members.map (fun member => (member.1, (member.2.toValue 123).toOption)) =
      pairs.map fun pair => (pair.1, some pair.2) := by
    have paired := mapM_eq_ok_iff.mp values
    clear values
    induction paired with
    | nil => rfl
    | cons isPair _ induction =>
        have ⟨sameName, isValue⟩ := Node.memberValue_eq_ok_iff.mp isPair
        rw [List.map_cons, List.map_cons, induction, sameName, isValue]
        rfl
  have found := congrArg (lastNamed? name) same
  rw [lastNamed?_map name members fun node => (node.toValue 123).toOption,
    lastNamed?_map] at found
  have isLast : (named name members).getLast? = lastNamed? name members := by
    rw [lastNamed?_eq_getLast?, named, List.getLast?_map]
  rw [lastValue?, isLast]
  cases isMember : lastNamed? name members with
  | none =>
      rw [isMember] at found
      exact (Option.map_eq_none_iff.mp found.symm).symm
  | some node =>
      rw [isMember] at found
      rcases Option.map_eq_some_iff.mp found.symm with ⟨value, isValue, same⟩
      rw [isValue, Option.bind_some, same]

theorem ofMembers_eq_ok_iff {members : Entries Value} {item : Item} :
    ofMembers members = .ok item ↔
      item.Has "metric" (members.find? "metric") ∧ item.Has "value" (members.find? "value") := by
  cases item
  simp only [ofMembers, Has]
  cases members.find? "value" with
  | none => cases members.find? "metric" <;> simp [bind_eq_ok_iff]
  | some pair =>
      cases members.find? "metric" <;> simp [bind_eq_ok_iff, pure, Except.pure, and_comm]

theorem ofItems_eq_ok_iff {values : List Value} {item : Item} :
    ofItems values = .ok item ↔ ∃ metric pair, values = [metric, pair] ∧
      item.Has "metric" (some metric) ∧ item.Has "value" (some pair) := by
  cases item
  rcases values with _ | ⟨first, _ | ⟨second, _ | ⟨third, others⟩⟩⟩
  all_goals simp [ofItems, Has, bind_eq_ok_iff, pure, Except.pure]

theorem readable_iff {members : List (String × Node)} :
    (∃ pairs, members.mapM (Node.memberValue 123) = .ok pairs) ↔
      ∀ member ∈ members, IsReadable member.2 := by
  have all := @mapM_all_iff _ _ _ (Node.memberValue 123) (fun _ => True) members
  simp only [implies_true, and_true] at all
  rw [all]
  refine forall₂_congr fun member _ => ?_
  constructor
  · rintro ⟨pair, isPair⟩
    exact ⟨pair.2, (Node.memberValue_eq_ok_iff.mp isPair).2⟩
  · rintro ⟨value, isValue⟩
    exact ⟨(member.1, value), Node.memberValue_eq_ok_iff.mpr ⟨rfl, isValue⟩⟩

theorem fits_iff {item : Item} {fields : List (String × Node)} :
    layout.Fits item.Asserts IsReadable fields ↔
      (∀ field ∈ fields, IsReadable field.2) ∧
        item.Has "metric" (lastValue? (named "metric" fields)) ∧
        item.Has "value" (lastValue? (named "value" fields)) := by
  constructor
  · rintro ⟨asserted, passed⟩
    have ⟨_, metric⟩ := asserted "metric" (by decide)
    have ⟨_, value⟩ := asserted "value" (by decide)
    refine ⟨fun field member => ?_, metric, value⟩
    by_cases isName : field.1 ∈ layout.names
    · exact (asserted field.1 isName).1 field.2 (mem_named.mpr member)
    · exact passed field member isName
  · rintro ⟨readable, metric, value⟩
    refine ⟨fun name isName => ⟨fun node isNamed => readable _ (mem_named.mp isNamed), ?_⟩,
      fun field member _ => readable field member⟩
    have isOneOf : name = "metric" ∨ name = "value" := by simpa [layout, itemNames] using isName
    rcases isOneOf with rfl | rfl
    · exact metric
    · exact value

theorem isAt_record_iff {item : Item} {members : List (String × Node)} :
    IsAt (.record members) item ↔ layout.Fits item.Asserts IsReadable members := by
  have asserted : ∀ {pairs}, members.mapM (Node.memberValue 123) = .ok pairs →
      (ofMembers (Entries.ofList pairs) = .ok item ↔
        item.Has "metric" (lastValue? (named "metric" members)) ∧
          item.Has "value" (lastValue? (named "value" members))) := by
    intro pairs values
    rw [ofMembers_eq_ok_iff, Entries.find?_ofList, Entries.find?_ofList,
      lastValue?_named values, lastValue?_named values]
  rw [fits_iff, ← readable_iff, IsAt]
  simp only [Node.toValue_record]
  constructor
  · rintro ⟨_, ⟨pairs, values, rfl⟩, isItem⟩
    exact ⟨⟨pairs, values⟩, (asserted values).mp isItem⟩
  · rintro ⟨⟨pairs, values⟩, held⟩
    exact ⟨_, ⟨pairs, values, rfl⟩, (asserted values).mpr held⟩

theorem isAt_array_iff {item : Item} {items : List Node} :
    IsAt (.array items .closed) item ↔ items.length ≤ layout.names.length ∧
      layout.Fits item.Asserts IsReadable (layout.names.zip items) := by
  have isPair : IsAt (.array items .closed) item ↔ ∃ metric pair,
      List.Forall₂ (fun node value => node.toValue 123 = .ok value) items [metric, pair] ∧
        item.Has "metric" (some metric) ∧ item.Has "value" (some pair) := by
    simp only [IsAt, Node.toValue_array, ← mapM_eq_ok_iff]
    constructor
    · rintro ⟨_, ⟨values, areValues, rfl⟩, isItem⟩
      rcases ofItems_eq_ok_iff.mp isItem with ⟨metric, pair, rfl, held⟩
      exact ⟨metric, pair, areValues, held⟩
    · rintro ⟨metric, pair, areValues, held⟩
      exact ⟨_, ⟨_, areValues, rfl⟩, ofItems_eq_ok_iff.mpr ⟨metric, pair, rfl, held⟩⟩
  rw [isPair, fits_iff]
  simp only [layout, itemNames]
  rcases items with _ | ⟨first, _ | ⟨second, _ | ⟨third, others⟩⟩⟩
  · simp [Has, named, lastValue?]
  · simp [Has, named, lastValue?]
  · simp only [named, lastValue?, IsReadable]
    cases isFirst : first.toValue 123 <;> cases isSecond : second.toValue 123 <;>
      simp [isFirst, isSecond, Except.toOption]
  · simp

theorem respects (item : Item) : layout.Respects (IsAt · item) item.Asserts IsReadable := by
  constructor
  case nodup => decide
  case record_iff => exact fun _ => isAt_record_iff
  case array_iff => exact fun _ => isAt_array_iff
  case rearranged =>
    rintro name front back before after - rearranges ⟨readable, has⟩
    simp only [List.forall_mem_append, List.forall_mem_cons] at readable
    rcases readable with ⟨isFront, ⟨value, isValue⟩, isBack⟩
    have isSame := rearranges.toValue isValue
    refine ⟨?_, ?_⟩
    · simp only [List.forall_mem_append, List.forall_mem_cons]
      exact ⟨isFront, ⟨value, isSame⟩, isBack⟩
    · have sameLast : lastValue? (front ++ after :: back) =
          lastValue? (front ++ before :: back) := by
        cases back with
        | nil => simp [lastValue?, isValue, isSame]
        | cons next back => simp [lastValue?]
      rwa [sameLast]
  case within => exact fun within => within.elim
  case absent =>
    intro name isOptional
    rw [List.mem_singleton.mp isOptional]
    have empty : (Node.record []).toValue 123 = .ok (.object []) := rfl
    simp [Asserts, layout, lastValue?, IsReadable, empty, Except.toOption, Has, readMetric, eq_comm]
  case passes =>
    rintro before after rearranges ⟨value, isValue⟩
    exact ⟨value, rearranges.toValue isValue⟩
  case admits =>
    rintro value ⟨tree, rfl, fits⟩
    exact ⟨tree.value, tree.toValue_node fits⟩

end Item

/-! Where the content of a field stands alone under its name. -/

theorem fills_append_cons {Content : Type} {read : NodeReader Content} {front back : List Node}
    {node : Node} {slot : Option Content} :
    Fills read none (front ++ node :: back) slot ↔
      (front = [] ∧ back = []) ∧ ∃ content, read node = .ok content ∧ slot = some content := by
  rw [fills_none]
  simp only [List.append_eq_nil_iff, List.cons_ne_nil, and_false, false_and, false_or,
    List.append_eq_singleton_iff, List.cons.injEq]
  constructor
  · rintro ⟨_, content, ⟨rfl, rfl, rfl⟩ | ⟨_, impossible⟩, isRead, isSlot⟩
    exact ⟨⟨rfl, rfl⟩, content, isRead, isSlot⟩
  · rintro ⟨⟨rfl, rfl⟩, content, isRead, isSlot⟩
    exact ⟨node, content, .inl ⟨rfl, rfl, rfl⟩, isRead, isSlot⟩

/-- Only what has something in it can be written in several ways. -/
def HasParts : Node → Prop
  | .array _ _ | .object _ _ => True
  | _ => False

theorem hasParts_of_rearranges {before after : Node} (rearranges : before.Rearranges after) :
    HasParts before ∧ HasParts after := by
  cases rearranges <;> exact ⟨trivial, trivial⟩

theorem Layout.hasParts_of_rewrites {layout : Layout} {before after : Node}
    (rewrites : layout.Rewrites before after) : HasParts before ∧ HasParts after := by
  cases rewrites with
  | rearranged rearranges => exact hasParts_of_rearranges rearranges
  | inMember | inItem | added | removed | listed | unlisted => exact ⟨trivial, trivial⟩

theorem readOptional_of_hasParts {Content : Type} {read : NodeReader Content} {node : Node}
    (hasParts : HasParts node) : readOptional read node = (read node).map some := by
  cases node with
  | array | object => rfl
  | literal | text | absent => exact hasParts.elim

theorem readText_of_hasParts {node : Node} (hasParts : HasParts node) {content : String} :
    readText node ≠ .ok content := by
  cases node with
  | array | object => exact nofun
  | literal | text | absent => exact hasParts.elim

theorem readOptionalText_of_hasParts {node : Node} (hasParts : HasParts node)
    {content : Option String} : readOptional readText node ≠ .ok content := by
  rw [readOptional_of_hasParts hasParts]
  cases isRead : readText node with
  | error defect => exact nofun
  | ok text => exact absurd isRead (readText_of_hasParts hasParts)

theorem readOptional_eq_some_iff {Content : Type} {read : NodeReader Content} {node : Node}
    (hasParts : HasParts node) {content : Content} :
    readOptional read node = .ok (some content) ↔ read node = .ok content := by
  rw [readOptional_of_hasParts hasParts]
  cases read node <;> simp [Except.map]

theorem readOptionalValue_of_rearranges {before after : Node}
    (rearranges : before.Rearranges after) {depth : Nat} {content : Option Value}
    (isRead : readOptional (readValue depth) before = .ok content) :
    readOptional (readValue depth) after = .ok content := by
  have ⟨beforeHasParts, afterHasParts⟩ := hasParts_of_rearranges rearranges
  rw [readOptional_of_hasParts beforeHasParts] at isRead
  cases isValue : before.toValue depth with
  | error fault =>
      rw [readValue, isValue] at isRead
      cases isRead
  | ok value =>
      rw [readValue, isValue] at isRead
      rw [readOptional_of_hasParts afterHasParts, readValue, rearranges.toValue isValue]
      exact isRead

/-! Data. -/

namespace Data

/-- The items of a result that is an array may be rewritten. -/
inductive WithinResult : String → Node → Node → Prop
  | of {front back : List Node} {item other : Node} : Item.layout.Rewrites item other →
      WithinResult "result" (.array (front ++ item :: back) .closed)
        (.array (front ++ other :: back) .closed)

def layout : Layout where
  names := dataNames
  optional := dataNames
  absent := (SyntaxTree.literal .null).node
  Within := WithinResult
  Admits := fun value => ∃ text, Grammar.Outlines value text

def HasItems (data : Data) (items : List Item) : Prop :=
  (data.resultType = none ∨ data.resultType = some "vector") ∧
    ∃ result, data.result = some result ∧ Item.listOfValue result = .ok items

def IsAt (node : Node) (items : List Item) : Prop :=
  ∃ data, reader.read node = .ok data ∧ data.HasItems items

def Asserts (items : List Item) (name : String) (nodes : List Node) : Prop :=
  match name with
  | "resultType" => ∃ slot, Fills readResultType none nodes slot ∧
      (slot.join = none ∨ slot.join = some "vector")
  | "result" => ∃ result, Fills readResult none nodes (some (some result)) ∧
      Item.listOfValue result = .ok items
  | _ => True

theorem reads_iff_asserts {items : List Item} {fields : List (String × Node)} :
    (∃ data, Reads fields data ∧ data.HasItems items) ↔
      ∀ name ∈ layout.names, Asserts items name (named name fields) := by
  simp only [layout, dataNames, List.forall_mem_cons, Asserts, Reads, HasItems]
  constructor
  · rintro ⟨_, ⟨resultType, slot, isType, isResult, rfl⟩, isVector, result, isSome, areItems⟩
    refine ⟨⟨resultType, isType, isVector⟩, ⟨result, ?_, areItems⟩, List.forall_mem_nil _⟩
    rwa [← Option.join_eq_some_iff.mp isSome]
  · rintro ⟨⟨resultType, isType, isVector⟩, ⟨result, isResult, areItems⟩, _⟩
    exact ⟨_, ⟨resultType, some (some result), isType, isResult, rfl⟩, isVector, result, rfl,
      areItems⟩

theorem isAt_iff_fits {node : Node} {fields : List (String × Node)} {items : List Item}
    (hasFields : HasFields dataNames node fields) :
    IsAt node items ↔ layout.Fits (Asserts items) (·.skimFault? = none) fields := by
  simp only [IsAt, read_iff_reads hasFields, Layout.Fits, ← reads_iff_asserts]
  constructor
  · rintro ⟨data, ⟨reads, passes⟩, hasItems⟩
    exact ⟨⟨data, reads, hasItems⟩, passes⟩
  · rintro ⟨⟨data, reads, hasItems⟩, passes⟩
    exact ⟨data, ⟨reads, passes⟩, hasItems⟩

/-- The items of a result are read one by one. -/
theorem readResult_array_iff {nodes : List Node} {items : List Item} :
    (∃ result, readResult (.array nodes .closed) = .ok (some result) ∧
      Item.listOfValue result = .ok items) ↔ List.Forall₂ Item.IsAt nodes items := by
  have isResult : ∀ {result}, readResult (.array nodes .closed) = .ok (some result) ↔
      (Node.array nodes .closed).toValue 125 = .ok result := by
    intro result
    have hasParts : HasParts (.array nodes .closed) := trivial
    rw [readResult, readOptional_eq_some_iff hasParts, readValue, inDocument, mapError_eq_ok_iff]
    rfl
  simp only [isResult, Node.toValue_array]
  refine Iff.trans ?_ mapM_comp_eq_ok_iff
  constructor
  · rintro ⟨_, ⟨values, areValues, rfl⟩, areItems⟩
    exact ⟨values, areValues, areItems⟩
  · rintro ⟨values, areValues, areItems⟩
    exact ⟨_, ⟨values, areValues, rfl⟩, areItems⟩

theorem respects (items : List Item) :
    layout.Respects (IsAt · items) (Asserts items) (·.skimFault? = none) := by
  constructor
  case nodup => decide
  case record_iff => exact fun members => isAt_iff_fits (.object members)
  case array_iff =>
    intro nodes
    constructor
    · rintro ⟨data, isRead, hasItems⟩
      have within : nodes.length ≤ dataNames.length := (ofItems_closed.mp isRead).1
      exact ⟨within, (isAt_iff_fits (.array within)).mp ⟨data, isRead, hasItems⟩⟩
    · rintro ⟨within, fits⟩
      exact (isAt_iff_fits (.array within)).mpr fits
  case rearranged =>
    intro name front back before after isName rearranges asserted
    have hasParts := (hasParts_of_rearranges rearranges).1
    have isOneOf : name = "resultType" ∨ name = "result" := by
      simpa [layout, dataNames] using isName
    rcases isOneOf with rfl | rfl
    · rcases asserted with ⟨slot, isType, _⟩
      rcases fills_append_cons.mp isType with ⟨_, _, isRead, _⟩
      exact absurd isRead (readOptionalText_of_hasParts hasParts)
    · rcases asserted with ⟨result, isResult, areItems⟩
      rcases fills_append_cons.mp isResult with ⟨alone, content, isRead, same⟩
      exact ⟨result, fills_append_cons.mpr
        ⟨alone, content, readOptionalValue_of_rearranges rearranges isRead, same⟩, areItems⟩
  case within =>
    rintro _ front back _ _ ⟨rewrites⟩ ⟨result, isResult, areItems⟩
    rcases fills_append_cons.mp isResult with ⟨alone, content, isRead, same⟩
    rw [Option.some.injEq] at same
    rw [← same] at isRead
    have areAt := readResult_array_iff.mp ⟨result, isRead, areItems⟩
    have stillAt := forall₂_replace areAt fun item isAt =>
      (Item.respects item).tells_of_rewrites rewrites isAt
    rcases readResult_array_iff.mpr stillAt with ⟨other, isOther, areSame⟩
    exact ⟨other, fills_append_cons.mpr ⟨alone, _, isOther, rfl⟩, areSame⟩
  case absent =>
    intro name isOptional
    have isOneOf : name = "resultType" ∨ name = "result" := by
      simpa [layout, dataNames] using isOptional
    have isNull : ∀ {Content : Type} {read : NodeReader Content},
      readOptional read layout.absent = .ok none := rfl
    rcases isOneOf with rfl | rfl
    · simp [Asserts, readResultType, isNull, Fills]
    · simp [Asserts, readResult, isNull, Fills]
  case passes => exact fun rearranges => rearranges.skimFault?
  case admits =>
    rintro value ⟨text, outlines⟩
    exact outlines.skimFault?

end Data

/-! The envelope. -/

namespace Envelope

inductive WithinData : String → Node → Node → Prop
  | of {before after : Node} : Data.layout.Rewrites before after → WithinData "data" before after

def layout : Layout where
  names := envelopeNames
  optional := ["error", "errorType", "data"]
  absent := (SyntaxTree.literal .null).node
  Within := WithinData
  Admits := fun value => ∃ text, Grammar.Outlines value text

def HasItems (envelope : Envelope) (items : List Item) : Prop :=
  envelope.status = "success" ∧ ∃ data, envelope.data = some data ∧ data.HasItems items

def IsAt (node : Node) (items : List Item) : Prop :=
  ∃ envelope, reader.read node = .ok envelope ∧ envelope.HasItems items

def Asserts (items : List Item) (name : String) (nodes : List Node) : Prop :=
  match name with
  | "status" => Fills readText none nodes (some "success")
  | "error" => ∃ slot, Fills readError none nodes slot
  | "errorType" => ∃ slot, Fills readErrorType none nodes slot
  | "data" => ∃ data, Fills readData none nodes (some (some data)) ∧ data.HasItems items
  | _ => True

theorem reads_iff_asserts {items : List Item} {fields : List (String × Node)} :
    (∃ envelope, Reads fields envelope ∧ envelope.HasItems items) ↔
      ∀ name ∈ layout.names, Asserts items name (named name fields) := by
  simp only [layout, envelopeNames, List.forall_mem_cons, Asserts, Reads, HasItems]
  constructor
  · rintro ⟨_, ⟨status, error, errorType, slot, isStatus, isError, isErrorType, isData, rfl⟩, rfl,
      data, isSome, hasItems⟩
    refine ⟨isStatus, ⟨error, isError⟩, ⟨errorType, isErrorType⟩, ⟨data, ?_, hasItems⟩,
      List.forall_mem_nil _⟩
    rwa [← Option.join_eq_some_iff.mp isSome]
  · rintro ⟨isStatus, ⟨error, isError⟩, ⟨errorType, isErrorType⟩, ⟨data, isData, hasItems⟩, _⟩
    exact ⟨_, ⟨_, error, errorType, some (some data), isStatus, isError, isErrorType, isData, rfl⟩,
      rfl, data, rfl, hasItems⟩

theorem isAt_iff_fits {node : Node} {fields : List (String × Node)} {items : List Item}
    (hasFields : HasFields envelopeNames node fields) :
    IsAt node items ↔ layout.Fits (Asserts items) (·.skimFault? = none) fields := by
  simp only [IsAt, read_iff_reads hasFields, Layout.Fits, ← reads_iff_asserts]
  constructor
  · rintro ⟨envelope, ⟨reads, passes⟩, hasItems⟩
    exact ⟨⟨envelope, reads, hasItems⟩, passes⟩
  · rintro ⟨⟨envelope, reads, hasItems⟩, passes⟩
    exact ⟨envelope, ⟨reads, passes⟩, hasItems⟩

theorem readData_eq_some_iff {node : Node} (hasParts : HasParts node) {data : Data} :
    readData node = .ok (some data) ↔ Data.reader.read node = .ok data :=
  readOptional_eq_some_iff hasParts

/-- Data may be rewritten where they stand. -/
theorem asserts_data {items : List Item} {front back : List Node} {before after : Node}
    (rewrites : Data.layout.Rewrites before after)
    (asserted : Asserts items "data" (front ++ before :: back)) :
    Asserts items "data" (front ++ after :: back) := by
  have ⟨beforeHasParts, afterHasParts⟩ := Layout.hasParts_of_rewrites rewrites
  rcases asserted with ⟨data, isData, hasItems⟩
  rcases fills_append_cons.mp isData with ⟨alone, content, isRead, same⟩
  rw [Option.some.injEq] at same
  rw [← same, readData_eq_some_iff beforeHasParts] at isRead
  rcases (Data.respects items).tells_of_rewrites rewrites ⟨data, isRead, hasItems⟩ with
    ⟨other, isOther, otherHasItems⟩
  exact ⟨other, fills_append_cons.mpr
    ⟨alone, _, (readData_eq_some_iff afterHasParts).mpr isOther, rfl⟩, otherHasItems⟩

theorem respects (items : List Item) :
    layout.Respects (IsAt · items) (Asserts items) (·.skimFault? = none) := by
  constructor
  case nodup => decide
  case record_iff => exact fun members => isAt_iff_fits (.object members)
  case array_iff =>
    intro nodes
    constructor
    · rintro ⟨envelope, isRead, hasItems⟩
      have within : nodes.length ≤ envelopeNames.length := (ofItems_closed.mp isRead).1
      exact ⟨within, (isAt_iff_fits (.array within)).mp ⟨envelope, isRead, hasItems⟩⟩
    · rintro ⟨within, fits⟩
      exact (isAt_iff_fits (.array within)).mpr fits
  case rearranged =>
    intro name front back before after isName rearranges asserted
    have hasParts := (hasParts_of_rearranges rearranges).1
    have isOneOf : name = "status" ∨ name = "error" ∨ name = "errorType" ∨ name = "data" := by
      simpa [layout, envelopeNames] using isName
    rcases isOneOf with rfl | rfl | rfl | rfl
    · rcases fills_append_cons.mp asserted with ⟨_, _, isRead, _⟩
      exact absurd isRead (readText_of_hasParts hasParts)
    · rcases asserted with ⟨slot, isError⟩
      rcases fills_append_cons.mp isError with ⟨alone, content, isRead, same⟩
      exact ⟨slot, fills_append_cons.mpr
        ⟨alone, content, readOptionalValue_of_rearranges rearranges isRead, same⟩⟩
    · rcases asserted with ⟨slot, isErrorType⟩
      rcases fills_append_cons.mp isErrorType with ⟨_, _, isRead, _⟩
      exact absurd isRead (readOptionalText_of_hasParts hasParts)
    · exact asserts_data (.rearranged rearranges) asserted
  case within =>
    rintro _ front back before after ⟨rewrites⟩ asserted
    exact asserts_data rewrites asserted
  case absent =>
    intro name isOptional
    have isOneOf : name = "error" ∨ name = "errorType" ∨ name = "data" := by
      simpa [layout] using isOptional
    have isNull : ∀ {Content : Type} {read : NodeReader Content},
      readOptional read layout.absent = .ok none := rfl
    rcases isOneOf with rfl | rfl | rfl
    · simp [Asserts, readError, isNull, Fills]
    · simp [Asserts, readErrorType, isNull, Fills]
    · simp [Asserts, readData, isNull, Fills]
  case passes => exact fun rearranges => rearranges.skimFault?
  case admits =>
    rintro value ⟨text, outlines⟩
    exact outlines.skimFault?

end Envelope

/-! From the envelope to the samples. -/

theorem verdict_eq_series_iff {envelope : Envelope} {items : List Item} :
    envelope.verdict = .ok (.series items) ↔ envelope.HasItems items := by
  by_cases success : envelope.status = "success"
  · simp only [Envelope.verdict, success, if_true, bind_eq_ok_iff, Envelope.result_eq_ok_iff,
      mapError_eq_ok_iff, Envelope.HasItems, Data.HasItems, true_and]
    constructor
    · rintro ⟨result, ⟨data, isData, isVector, isResult⟩, content, areItems, done⟩
      cases done
      exact ⟨data, isData, isVector, result, isResult, areItems⟩
    · rintro ⟨data, isData, isVector, result, isResult, areItems⟩
      exact ⟨result, ⟨data, isData, isVector, isResult⟩, items, areItems, rfl⟩
  · simp [Envelope.verdict, success, Envelope.HasItems, pure, Except.pure]

theorem parse_eq_ok_iff {node : Node} {body : List UInt8} {samples : Option (List Sample)}
    (carries : Grammar.Carries node body) :
    parse body = .ok samples ↔
      ∃ items, Envelope.IsAt node items ∧ (Verdict.series items).samples? = .ok samples := by
  simp only [parse, decode, carries.ofBytes, Envelope.ofDocument, if_true, bind_assoc,
    bind_eq_ok_iff, mapError_eq_ok_iff, Envelope.IsAt, ← verdict_eq_series_iff]
  constructor
  · rintro ⟨envelope, ⟨_, isRead, same⟩, verdict, isVerdict, areSamples⟩
    cases same
    cases verdict with
    | refused message => cases areSamples
    | series items => exact ⟨items, ⟨envelope, isRead, isVerdict⟩, areSamples⟩
  · rintro ⟨items, ⟨envelope, isRead, isVerdict⟩, areSamples⟩
    exact ⟨envelope, ⟨envelope, isRead, rfl⟩, _, isVerdict, areSamples⟩

/-- However an answer is rewritten, its samples stay the same. -/
theorem parse_of_rewrites {first second : List UInt8} {before after : Node}
    {samples : Option (List Sample)} (carriesFirst : Grammar.Carries before first)
    (carriesSecond : Grammar.Carries after second)
    (rewritten : Relation.ReflTransGen Envelope.layout.Rewrites before after)
    (parsed : parse first = .ok samples) : parse second = .ok samples := by
  rcases (parse_eq_ok_iff carriesFirst).mp parsed with ⟨items, isAt, areSamples⟩
  refine (parse_eq_ok_iff carriesSecond).mpr ⟨items, ?_, areSamples⟩
  clear parsed carriesFirst carriesSecond
  induction rewritten with
  | refl => exact isAt
  | tail _ rewrites induction =>
      exact (Envelope.respects items).tells_of_rewrites rewrites induction

/-! The answer with one series once more, its envelope as an object with its members the other
way round, its series as an array, and something beside its result. -/

def pairAtSeven : Node :=
  (SyntaxTree.array [.literal (.number (.whole 7)), .text "1"]).node

def listedResult : String × Node :=
  ("result", .array [.array [.record [], pairAtSeven] .closed] .closed)

def halfNote : String × Node :=
  ("n", .text ⟨Grammar.contentOf "\\ud800".toList, none⟩)

def statusField : String × Node :=
  ("status", (SyntaxTree.text "success").node)

def listedSeriesEnvelope : List (String × Node) :=
  [("data", .record [listedResult, halfNote]), statusField]

def listedSeriesText : String :=
  "\x7b\"data\":\x7b\"result\":[[\x7b\x7d,[7,\"\\u0031\"]]], \"n\":\"\\ud800\"\x7d," ++
    "\"status\":\"success\"\x7d"

theorem listedSeries_carries :
    Grammar.Carries (.record listedSeriesEnvelope) (Utf8.encode listedSeriesText.toList) := by
  have blanks := Grammar.noBlanks
  have space : Grammar.Blanks [' '] := by simp [Grammar.Blanks, Token.isBlank]
  have quoted := fun content => Grammar.Quotes.content (Grammar.quotation_write content)
  have numeral : Grammar.Numeral ⟨false, ['7'], none, none⟩ ['7'] :=
    .of (.digits (by decide) (by simp [Grammar.Digits, isDecimalDigit])) .absent .absent
  have reads : Json.Spelling.Reads ⟨false, ['7'], none, none⟩ (.whole 7) :=
    .whole (.natural rfl rfl rfl (by decide))
  have seven := Grammar.Outlines.literal (.atom (.number numeral reads))
  have one : Grammar.Quotation "1" "\"\\u0031\"".toList :=
    .of (.cons (.unit rfl rfl rfl) .nil)
  have pair := Grammar.Outlines.array blanks seven
    (.comma blanks blanks (.text (.content one)) (.close blanks))
  have series := Grammar.Outlines.array blanks (.emptyObject blanks)
    (.comma blanks blanks pair (.close blanks))
  have result := Grammar.OutlinesMember.of (quoted "result") blanks blanks
    (.array blanks series (.close blanks))
  have note := Grammar.OutlinesMember.of (quoted "n") blanks blanks
    (.text (.marks Grammar.marks_half))
  have data := Grammar.OutlinesMember.of (quoted "data") blanks blanks
    (.object blanks result (.comma blanks space note (.close blanks)))
  have status := Grammar.OutlinesMember.of (quoted "status") blanks blanks
    (.text (quoted "success"))
  have envelope := Grammar.Outlines.object blanks data
    (.comma blanks blanks status (.close blanks))
  exact .of blanks envelope blanks

theorem oneSeries_lists :
    Item.layout.Lists [("value", pairAtSeven)] [.record [], pairAtSeven] := by
  constructor
  case namesDiffer => exact List.pairwise_singleton _ _
  case known => simp [Item.layout, itemNames]
  case inOrder =>
    have metric : "metric" ∈ Item.layout.optional := List.mem_singleton_self "metric"
    exact .cons (.inr ⟨metric, by simp, rfl⟩) (.cons (.inl List.mem_cons_self) .nil)

theorem oneSeriesData_rewrites :
    Relation.ReflTransGen Data.layout.Rewrites oneSeriesData.node
      (.record [listedResult, halfNote]) := by
  have series : Item.layout.Rewrites oneSeries.node (.array [.record [], pairAtSeven] .closed) :=
    .listed oneSeries_lists
  have result : Data.layout.Rewrites oneSeriesData.node (.record [listedResult]) :=
    @Layout.Rewrites.inMember _ [] [] _ _ _ (by decide) (@Data.WithinResult.of [] [] _ _ series)
  have note : Data.layout.Rewrites (.record [listedResult]) (.record [listedResult, halfNote]) :=
    @Layout.Rewrites.added _ [listedResult] [] _ _ (by decide)
      ⟨_, .text (.marks Grammar.marks_half)⟩
  exact .tail (.single result) note

theorem oneSeriesEnvelope_rewrites :
    Relation.ReflTransGen Envelope.layout.Rewrites oneSeriesEnvelope.node
      (.record listedSeriesEnvelope) := by
  have lists : Envelope.layout.Lists [statusField, ("data", oneSeriesData.node)]
      [statusField.2, Envelope.layout.absent, Envelope.layout.absent, oneSeriesData.node] := by
    constructor
    case namesDiffer => exact .pair (by decide) _ _
    case known => simp [statusField, Envelope.layout, envelopeNames]
    case inOrder =>
      have error : "error" ∈ Envelope.layout.optional := by decide
      have errorType : "errorType" ∈ Envelope.layout.optional := by decide
      exact .cons (.inl (by simp [statusField])) (.cons (.inr ⟨error, by simp [statusField], rfl⟩)
        (.cons (.inr ⟨errorType, by simp [statusField], rfl⟩) (.cons (.inl (by simp)) .nil)))
  have swapped : Envelope.layout.Rewrites (.record [statusField, ("data", oneSeriesData.node)])
      (.record [("data", oneSeriesData.node), statusField]) :=
    .rearranged (.members lists.namesDiffer (.swap _ _ _))
  have inData : ∀ before after, Data.layout.Rewrites before after →
      Envelope.layout.Rewrites (.record [("data", before), statusField])
        (.record [("data", after), statusField]) :=
    fun _ _ rewrites =>
      @Layout.Rewrites.inMember _ [] [statusField] "data" _ _ (by decide) (.of rewrites)
  exact .head (.unlisted lists) (.head swapped (oneSeriesData_rewrites.lift _ inData))

def itemAtSeven : Item := ⟨[], (Number.whole 7).toBinary64, .text "1"⟩

theorem oneSeriesEnvelope_isAt : Envelope.IsAt oneSeriesEnvelope.node [itemAtSeven] :=
  ⟨⟨"success", none, none, some ⟨none, some (SyntaxTree.array [oneSeries]).value⟩⟩, rfl, rfl, _,
    rfl, .inl rfl, _, rfl, rfl⟩

theorem parse_listedSeries :
    ∃ samples, parse (Utf8.encode oneSeriesText.toList) = .ok samples ∧
      parse (Utf8.encode listedSeriesText.toList) = .ok samples := by
  have isTime : IsTime (.whole 7) := ⟨7000, by decide +kernel, by decide, by decide⟩
  have timely : ∃ timestamp, timestampOfSeconds itemAtSeven.seconds = .ok timestamp :=
    (@timestampOfSeconds_iff (.whole 7)).mpr isTime
  have isSample := sample_iff.mpr timely
  rcases samples?_series_iff.mpr (List.forall_mem_singleton.mpr isSample) with
    ⟨samples, areSamples⟩
  have carries := oneSeries_encodes.carries
  have parsed := (parse_eq_ok_iff carries).mpr ⟨_, oneSeriesEnvelope_isAt, areSamples⟩
  exact ⟨samples, parsed,
    parse_of_rewrites carries listedSeries_carries oneSeriesEnvelope_rewrites parsed⟩

end MetricWatch.Response
