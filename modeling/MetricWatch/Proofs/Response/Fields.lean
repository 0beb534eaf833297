import MetricWatch.Proofs.Json.Faultless
import MetricWatch.Proofs.Lookup
import MetricWatch.Proofs.Outcome
import MetricWatch.Response.Envelope

namespace MetricWatch.Response

open Json

/-! The fields of the envelope and of the data in it, on the tree of a document. Fields that
nothing asks for may hold what cannot be read: they are only passed over. -/

def envelopeNames : List String := ["status", "error", "errorType", "data"]

def dataNames : List String := ["resultType", "result"]

def itemNames : List String := ["metric", "value"]

/-- The fields of what is written as an object, or as an array of them in order. An array
may break off early. -/
inductive HasFields (names : List String) : Node → List (String × Node) → Prop
  | object (members : List (String × Node)) : HasFields names (.record members) members
  | array {items : List Node} : items.length ≤ names.length →
      HasFields names (.array items .closed) (names.zip items)

/-- All that stands under a name. -/
def named (name : String) (fields : List (String × Node)) : List Node :=
  (fields.filter fun field => field.1 == name).map (·.2)

/-- What is not asked for can be passed over. -/
def PassesOver (names : List String) (fields : List (String × Node)) : Prop :=
  ∀ field ∈ fields, field.1 ∉ names → field.2.skimFault? = none

section Names

variable {names : List String} {name other : String} {fields : List (String × Node)}

theorem named_cons (node : Node) :
    named name ((other, node) :: fields) =
      if other = name then node :: named name fields else named name fields := by
  by_cases same : other = name <;> simp [named, same]

theorem named_cons_self (node : Node) :
    named name ((name, node) :: fields) = node :: named name fields :=
  (named_cons node).trans (if_pos rfl)

theorem named_cons_of_ne (different : other ≠ name) (node : Node) :
    named name ((other, node) :: fields) = named name fields :=
  (named_cons node).trans (if_neg different)

theorem mem_named {node : Node} : node ∈ named name fields ↔ (name, node) ∈ fields := by
  simp [named]

/-- Where no name is repeated, at most one node stands under each. -/
theorem named_of_namesDiffer (differ : NamesDiffer fields) (name : String) :
    named name fields = [] ∨ ∃ node, (name, node) ∈ fields ∧ named name fields = [node] := by
  have atMost := differ.length_filter_le name
  rw [← List.length_map (·.2)] at atMost
  change (named name fields).length ≤ 1 at atMost
  cases isNamed : named name fields with
  | nil => exact .inl rfl
  | cons node others =>
      have noOthers : others = [] := by
        rw [isNamed, List.length_cons] at atMost
        exact List.eq_nil_of_length_eq_zero (by omega)
      have member : node ∈ named name fields := by rw [isNamed]; exact List.mem_cons_self
      exact .inr ⟨node, mem_named.mp member, by rw [noOthers]⟩

theorem named_of_mem (differ : NamesDiffer fields) {node : Node} (member : (name, node) ∈ fields) :
    named name fields = [node] := by
  have isNamed := mem_named.mpr member
  rcases named_of_namesDiffer differ name with nothing | ⟨only, _, single⟩
  · rw [nothing] at isNamed
    cases isNamed
  · rw [single, List.mem_singleton] at isNamed
    rw [single, isNamed]

theorem passesOver_cons_of_mem (isName : name ∈ names) (node : Node) :
    PassesOver names ((name, node) :: fields) ↔ PassesOver names fields := by
  simp [PassesOver, isName]

theorem passesOver_cons_of_not_mem (notName : name ∉ names) (node : Node) :
    PassesOver names ((name, node) :: fields) ↔
      node.skimFault? = none ∧ PassesOver names fields := by
  simp [PassesOver, notName]

/-- An array has no fields but those that are asked for. -/
theorem passesOver_zip (names : List String) (items : List Node) :
    PassesOver names (names.zip items) :=
  fun _ member notName => absurd (List.of_mem_zip member).1 notName

end Names

/-! A slot is filled at most once. -/

/-- What reading the nodes under one name one after the other makes of its slot. -/
def Fills {Content : Type} (read : NodeReader Content) (earlier : Option Content) :
    List Node → Option Content → Prop
  | [], slot => slot = earlier
  | node :: nodes, slot =>
      earlier = none ∧ ∃ content, read node = .ok content ∧ Fills read (some content) nodes slot

section Slots

variable {Content : Type} {read : NodeReader Content} {node : Node} {nodes : List Node}
  {slot : Option Content}

theorem fills_some {content : Content} :
    Fills read (some content) nodes slot ↔ nodes = [] ∧ slot = some content := by
  cases nodes <;> simp [Fills]

theorem fills_singleton :
    Fills read none [node] slot ↔ ∃ content, read node = .ok content ∧ slot = some content := by
  simp [Fills]

theorem fills_none :
    Fills read none nodes slot ↔
      (nodes = [] ∧ slot = none) ∨
        ∃ node content, nodes = [node] ∧ read node = .ok content ∧ slot = some content := by
  cases nodes with
  | nil => simp [Fills]
  | cons node nodes =>
      simp only [Fills, fills_some, true_and, List.cons_ne_nil, false_and, false_or,
        List.cons.injEq]
      constructor
      · rintro ⟨content, isRead, isLast, isSlot⟩
        exact ⟨node, content, ⟨rfl, isLast⟩, isRead, isSlot⟩
      · rintro ⟨_, content, ⟨rfl, isLast⟩, isRead, isSlot⟩
        exact ⟨content, isRead, isLast, isSlot⟩

theorem readOnce_eq_ok_iff {name : String} {earlier : Option Content} :
    readOnce name read earlier node = .ok slot ↔
      earlier = none ∧ ∃ content, read node = .ok content ∧ slot = some content := by
  cases earlier with
  | some content => simp [readOnce]
  | none =>
      simp only [readOnce, Option.isSome_none, Bool.false_eq_true, if_false, true_and]
      cases read node <;> simp [Except.map, eq_comm]

end Slots

theorem passOver_eq_ok_iff {node : Node} {done : Unit} :
    passOver node = .ok done ↔ node.skimFault? = none := by
  rw [passOver, inDocument, mapError_eq_ok_iff]
  cases node.skimFault? <;> simp [Fault.check]

theorem foldMembers_keyed_cons {Fields : Type}
    (step : Fields → String → Node → Except Defect Fields) (fields final : Fields) (name : String)
    (node : Node) (members : List (String × Node)) :
    foldMembers step fields (Node.keyed ((name, node) :: members)) .closed = .ok final ↔
      ∃ next, step fields name node = .ok next ∧
        foldMembers step next (Node.keyed members) .closed = .ok final := by
  rw [← bind_eq_ok_iff]
  rfl

/-! The same for an array. -/

section Items

variable {Content Next : Type} {read : NodeReader Content} {item : Node} {items : List Node}
  {following : Option Content × List Node → Except Defect Next} {next : Next}

theorem nextItem_nil :
    (nextItem read [] .closed >>= following) = following (none, []) := rfl

theorem nextItem_cons :
    (nextItem read (item :: items) .closed >>= following) =
      read item >>= fun content => following (some content, items) := by
  rw [nextItem]
  cases read item <;> rfl

theorem noFurtherItems_nil : noFurtherItems [] .closed = .ok () := rfl

theorem noFurtherItems_cons :
    noFurtherItems (item :: items) .closed = .error (.document .trailingCharacters) := rfl

end Items

/-! Data. -/

namespace Data

/-- What the fields of data say. -/
def Reads (fields : List (String × Node)) (data : Data) : Prop :=
  ∃ resultType result, Fills readResultType none (named "resultType" fields) resultType ∧
    Fills readResult none (named "result" fields) result ∧
    data = ⟨resultType.join, result.join⟩

theorem foldMembers_eq_ok_iff {members : List (String × Node)} {fields final : Fields} :
    foldMembers readMember fields (Node.keyed members) .closed = .ok final ↔
      Fills readResultType fields.resultType (named "resultType" members) final.resultType ∧
        Fills readResult fields.result (named "result" members) final.result ∧
        PassesOver dataNames members := by
  induction members generalizing fields with
  | nil =>
      cases fields
      cases final
      simp [Node.keyed, foldMembers, named, Fills, PassesOver, Ending.memberFault?, Fault.check,
        inDocument, Except.mapError, bind, Except.bind, pure, Except.pure, eq_comm]
  | cons first members induction =>
      rcases first with ⟨name, node⟩
      simp only [foldMembers_keyed_cons, induction]
      by_cases isName : name ∈ dataNames
      · have isOneOf : name = "resultType" ∨ name = "result" := by simpa [dataNames] using isName
        rw [passesOver_cons_of_mem isName]
        rcases isOneOf with rfl | rfl
        all_goals
          simp only [named_cons, String.reduceEq, if_true, if_false, readMember, bind_eq_ok_iff,
            readOnce_eq_ok_iff, pure, Except.pure, Except.ok.injEq, Fills]
          grind
      · have isNoneOf : name ≠ "resultType" ∧ name ≠ "result" := by simpa [dataNames] using isName
        rcases isNoneOf with ⟨notResultType, notResult⟩
        rw [passesOver_cons_of_not_mem isName]
        simp only [named_cons, notResultType, notResult, if_false, readMember, bind_eq_ok_iff,
          passOver_eq_ok_iff, pure, Except.pure, Except.ok.injEq]
        grind

theorem ofMembers_keyed {members : List (String × Node)} {data : Data} :
    ofMembers (Node.keyed members) .closed = .ok data ↔
      Reads members data ∧ PassesOver dataNames members := by
  simp only [ofMembers, bind_eq_ok_iff, foldMembers_eq_ok_iff, Reads, pure, Except.pure,
    Except.ok.injEq]
  constructor
  · rintro ⟨fields, ⟨resultType, result, foreign⟩, rfl⟩
    exact ⟨⟨_, _, resultType, result, rfl⟩, foreign⟩
  · rintro ⟨⟨resultType, result, isType, isResult, rfl⟩, foreign⟩
    exact ⟨⟨resultType, result⟩, ⟨isType, isResult, foreign⟩, rfl⟩

theorem ofItems_closed {items : List Node} {data : Data} :
    ofItems items .closed = .ok data ↔
      items.length ≤ dataNames.length ∧ Reads (dataNames.zip items) data := by
  cases data
  simp only [ofItems, Reads, dataNames]
  rcases items with _ | ⟨first, _ | ⟨second, _ | ⟨third, others⟩⟩⟩
  all_goals
    simp only [nextItem_nil, nextItem_cons, noFurtherItems_nil, noFurtherItems_cons, bind_eq_ok_iff]
    simp [pure, Except.pure, named, Fills]
  all_goals grind

theorem read_iff_reads {node : Node} {fields : List (String × Node)} {data : Data}
    (hasFields : HasFields dataNames node fields) :
    reader.read node = .ok data ↔ Reads fields data ∧ PassesOver dataNames fields := by
  cases hasFields with
  | object => exact ofMembers_keyed
  | array fits =>
      rw [FieldReader.read]
      simp [reader, ofItems_closed, fits, passesOver_zip]

end Data

/-! The envelope. -/

namespace Envelope

/-- What the fields of an envelope say. -/
def Reads (fields : List (String × Node)) (envelope : Envelope) : Prop :=
  ∃ status error errorType data, Fills readText none (named "status" fields) (some status) ∧
    Fills readError none (named "error" fields) error ∧
    Fills readErrorType none (named "errorType" fields) errorType ∧
    Fills readData none (named "data" fields) data ∧
    envelope = ⟨status, error.join, errorType.join, data.join⟩

theorem foldMembers_eq_ok_iff {members : List (String × Node)} {fields final : Fields} :
    foldMembers readMember fields (Node.keyed members) .closed = .ok final ↔
      Fills readText fields.status (named "status" members) final.status ∧
        Fills readError fields.error (named "error" members) final.error ∧
        Fills readErrorType fields.errorType (named "errorType" members) final.errorType ∧
        Fills readData fields.data (named "data" members) final.data ∧
        PassesOver envelopeNames members := by
  induction members generalizing fields with
  | nil =>
      cases fields
      cases final
      simp [Node.keyed, foldMembers, named, Fills, PassesOver, Ending.memberFault?, Fault.check,
        inDocument, Except.mapError, bind, Except.bind, pure, Except.pure, eq_comm]
  | cons first members induction =>
      rcases first with ⟨name, node⟩
      simp only [foldMembers_keyed_cons, induction]
      by_cases isName : name ∈ envelopeNames
      · have isOneOf : name = "status" ∨ name = "error" ∨ name = "errorType" ∨ name = "data" := by
          simpa [envelopeNames] using isName
        rw [passesOver_cons_of_mem isName]
        rcases isOneOf with rfl | rfl | rfl | rfl
        all_goals
          simp only [named_cons, String.reduceEq, if_true, if_false, readMember, bind_eq_ok_iff,
            readOnce_eq_ok_iff, pure, Except.pure, Except.ok.injEq, Fills]
          grind
      · have isNoneOf : name ≠ "status" ∧ name ≠ "error" ∧ name ≠ "errorType" ∧ name ≠ "data" := by
          simpa [envelopeNames] using isName
        rcases isNoneOf with ⟨notStatus, notError, notErrorType, notData⟩
        rw [passesOver_cons_of_not_mem isName]
        simp only [named_cons, notStatus, notError, notErrorType, notData, if_false, readMember,
          bind_eq_ok_iff, passOver_eq_ok_iff, pure, Except.pure, Except.ok.injEq]
        grind

theorem ofMembers_keyed {members : List (String × Node)} {envelope : Envelope} :
    ofMembers (Node.keyed members) .closed = .ok envelope ↔
      Reads members envelope ∧ PassesOver envelopeNames members := by
  simp only [ofMembers, bind_eq_ok_iff, foldMembers_eq_ok_iff, Reads]
  constructor
  · rintro ⟨fields, ⟨status, error, errorType, data, foreign⟩, done⟩
    split at done
    · cases done
    · rename_i isStatus
      cases done
      rw [isStatus] at status
      exact ⟨⟨_, _, _, _, status, error, errorType, data, rfl⟩, foreign⟩
  · rintro ⟨⟨status, error, errorType, data, isStatus, isError, isErrorType, isData, rfl⟩, foreign⟩
    exact ⟨⟨some status, error, errorType, data⟩,
      ⟨isStatus, isError, isErrorType, isData, foreign⟩, rfl⟩

theorem ofItems_closed {items : List Node} {envelope : Envelope} :
    ofItems items .closed = .ok envelope ↔
      items.length ≤ envelopeNames.length ∧ Reads (envelopeNames.zip items) envelope := by
  cases envelope
  simp only [ofItems, Reads, envelopeNames]
  rcases items with
    _ | ⟨first, _ | ⟨second, _ | ⟨third, _ | ⟨fourth, _ | ⟨fifth, others⟩⟩⟩⟩⟩
  all_goals
    simp only [nextItem_nil, nextItem_cons, noFurtherItems_nil, noFurtherItems_cons, bind_eq_ok_iff]
    simp [pure, Except.pure, named, Fills]
  all_goals grind

theorem read_iff_reads {node : Node} {fields : List (String × Node)} {envelope : Envelope}
    (hasFields : HasFields envelopeNames node fields) :
    reader.read node = .ok envelope ↔
      Reads fields envelope ∧ PassesOver envelopeNames fields := by
  cases hasFields with
  | object => exact ofMembers_keyed
  | array fits =>
      rw [FieldReader.read]
      simp [reader, ofItems_closed, fits, passesOver_zip]

end Envelope

end MetricWatch.Response
