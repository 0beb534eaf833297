import MetricWatch.Proofs.Response.Fields
import MetricWatch.Response.Sample

namespace MetricWatch.Response

open Json

/-! What a document must say to be the response to an instant query. -/

/-- The fields of what is written as an object, or as an array of them in order. An array
may break off early. -/
def fields? (names : List String) : SyntaxTree → Option (List (String × SyntaxTree))
  | .object members => some members
  | .array items => if items.length ≤ names.length then some (names.zip items) else none
  | .literal _ | .text _ => none

def RepeatsNone (names : List String) (fields : List (String × SyntaxTree)) : Prop :=
  ∀ name ∈ names, (fields.filter fun field => field.1 == name).length ≤ 1

/-- No field of the envelope is repeated, nor one of the data in it. -/
def NamesFieldsOnce (tree : SyntaxTree) : Prop :=
  ∀ envelope, fields? envelopeNames tree = some envelope →
    RepeatsNone envelopeNames envelope ∧
      ∀ data, ("data", data) ∈ envelope → ∀ fields, fields? dataNames data = some fields →
        RepeatsNone dataNames fields

/-- A number of seconds that gives whole milliseconds within the years of the calendar. -/
def IsTime (seconds : Number) : Prop :=
  ∃ milliseconds, (seconds.toBinary64.timesNat 1000).truncated? = some milliseconds ∧
    -8334601228800000 ≤ milliseconds ∧ milliseconds ≤ 8210266876799999

def IsSeries (item : SyntaxTree) : Prop :=
  ∃ fields, fields? itemNames item = some fields ∧
    (∀ metric, lastNamed? "metric" fields = some metric → ∃ labels, metric = .object labels) ∧
    ∃ seconds value,
      lastNamed? "value" fields = some (.array [.literal (.number seconds), value]) ∧
        IsTime seconds

def IsOptionalText (tree : SyntaxTree) : Prop :=
  tree = .literal .null ∨ ∃ content, tree = .text content

def IsVectorData (data : SyntaxTree) : Prop :=
  ∃ fields, fields? dataNames data = some fields ∧
    (∀ kind, lastNamed? "resultType" fields = some kind →
      kind = .literal .null ∨ kind = .text "vector") ∧
    ∃ items, lastNamed? "result" fields = some (.array items) ∧ ∀ item ∈ items, IsSeries item

def IsInstantVector (tree : SyntaxTree) : Prop :=
  ∃ envelope, fields? envelopeNames tree = some envelope ∧
    lastNamed? "status" envelope = some (.text "success") ∧
    (∀ errorType, lastNamed? "errorType" envelope = some errorType → IsOptionalText errorType) ∧
    ∃ data, lastNamed? "data" envelope = some data ∧ IsVectorData data

/-! Fields are read one after the other. A field that comes only once is read where it
stands, whatever stands around it. -/

/-- What has been read of a field. -/
def Filled {Content : Type} (read : NodeReader Content) (name : String)
    (fields : List (String × SyntaxTree)) (slot : Option Content) : Prop :=
  match lastNamed? name fields with
  | none => slot = none
  | some tree => ∃ content, read tree.node = .ok content ∧ slot = some content

/-- What is known in the end of a field that may be missing. -/
def Given {Content : Type} (read : NodeReader (Option Content)) (name : String)
    (fields : List (String × SyntaxTree)) (content : Option Content) : Prop :=
  match lastNamed? name fields with
  | none => content = none
  | some tree => read tree.node = .ok content

theorem given_iff {Content : Type} {read : NodeReader (Option Content)} {name : String}
    {fields : List (String × SyntaxTree)} {content : Option Content} :
    Given read name fields content ↔
      ∃ slot, Filled read name fields slot ∧ content = slot.join := by
  unfold Given Filled
  cases lastNamed? name fields with
  | none => simp
  | some tree =>
      constructor
      · exact fun isRead => ⟨some content, ⟨content, isRead, rfl⟩, rfl⟩
      · rintro ⟨_, ⟨_, isRead, rfl⟩, rfl⟩
        exact isRead

theorem repeatsNone_of_namesDiffer {fields : List (String × SyntaxTree)}
    (differ : NamesDiffer fields) (names : List String) : RepeatsNone names fields :=
  fun name _ => differ.length_filter_le name

/-! A tree without faults has the fields of its node. -/

def nodesOf (fields : List (String × SyntaxTree)) : List (String × Node) :=
  fields.map fun field => (field.1, field.2.node)

theorem hasFields_of_fields? {names : List String} {tree : SyntaxTree}
    {fields : List (String × SyntaxTree)} (isFields : fields? names tree = some fields) :
    HasFields names tree.node (nodesOf fields) := by
  cases tree with
  | literal atom => cases isFields
  | text content => cases isFields
  | object members =>
      cases isFields
      rw [SyntaxTree.node, SyntaxTree.memberNodes_eq_keyed]
      exact .object _
  | array items =>
      simp only [fields?, Option.ite_none_right_eq_some, Option.some.injEq] at isFields
      rcases isFields with ⟨fits, rfl⟩
      have zipped : nodesOf (names.zip items) = names.zip (items.map SyntaxTree.node) := by
        rw [List.zip_map_right]
        rfl
      rw [SyntaxTree.node, SyntaxTree.itemNodes_eq_map, zipped]
      exact .array (by simpa using fits)

theorem passesOver_nodesOf (names : List String) (fields : List (String × SyntaxTree)) :
    PassesOver names (nodesOf fields) := by
  intro field member _
  rcases List.mem_map.mp member with ⟨⟨_, tree⟩, _, rfl⟩
  exact tree.skimFault?_node

theorem filled_iff_fills {Content : Type} {names : List String} {read : NodeReader Content}
    {name : String} {fields : List (String × SyntaxTree)} {slot : Option Content}
    (once : RepeatsNone names fields) (isName : name ∈ names) :
    Filled read name fields slot ↔ Fills read none (named name (nodesOf fields)) slot := by
  have atMost := once name isName
  have same : named name (nodesOf fields) =
      (fields.filter fun field => field.1 == name).map (·.2.node) := by
    simp only [named, nodesOf, List.filter_map, List.map_map]
    rfl
  rw [Filled, lastNamed?_eq_getLast?, same]
  generalize fields.filter (fun field => field.1 == name) = occurrences at atMost ⊢
  rcases occurrences with _ | ⟨first, _ | ⟨second, others⟩⟩
  · exact Iff.rfl
  · exact fills_singleton.symm
  · simp at atMost

/-- Fields are read in the same way from an object and from an array. -/
theorem FieldReader.read_eq_ok_iff {Content : Type} (reader : FieldReader Content)
    {names : List String} {Holds : List (String × SyntaxTree) → Prop} {content : Content}
    {tree : SyntaxTree}
    (ofFields : ∀ {fields}, fields? names tree = some fields →
      (reader.read tree.node = .ok content ↔ Holds fields))
    (ofItems : ∀ items, reader.ofItems (SyntaxTree.itemNodes items) .closed = .ok content →
      items.length ≤ names.length) :
    reader.read tree.node = .ok content ↔
      ∃ fields, fields? names tree = some fields ∧ Holds fields := by
  cases tree with
  | literal atom =>
      simp [SyntaxTree.node, FieldReader.read, fields?, bind_eq_ok_iff, wrongLiteral]
  | text content =>
      simp [SyntaxTree.node, FieldReader.read, fields?, bind_eq_ok_iff]
  | object members =>
      rw [ofFields rfl]
      simp [fields?]
  | array items =>
      by_cases fits : items.length ≤ names.length
      · have isFields : fields? names (.array items) = some (names.zip items) := if_pos fits
        rw [ofFields isFields, isFields]
        simp
      · have noFields : fields? names (.array items) = none := if_neg fits
        have notRead : reader.read (.array (SyntaxTree.itemNodes items) .closed) ≠ .ok content :=
          fun isRead => fits (ofItems items isRead)
        simp [SyntaxTree.node, noFields, notRead]

namespace Data

theorem read_eq_ok_iff {tree : SyntaxTree}
    (once : ∀ fields, fields? dataNames tree = some fields → RepeatsNone dataNames fields)
    (data : Data) :
    reader.read tree.node = .ok data ↔
      ∃ fields, fields? dataNames tree = some fields ∧
        Given readResultType "resultType" fields data.resultType ∧
        Given readResult "result" fields data.result := by
  refine reader.read_eq_ok_iff ?_ fun items isRead => ?_
  · intro fields isFields
    have once := once fields isFields
    simp only [read_iff_reads (hasFields_of_fields? isFields), passesOver_nodesOf, and_true, Reads,
      given_iff, filled_iff_fills once (by decide : "resultType" ∈ dataNames),
      filled_iff_fills once (by decide : "result" ∈ dataNames)]
    constructor
    · rintro ⟨resultType, result, isType, isResult, rfl⟩
      exact ⟨⟨resultType, isType, rfl⟩, result, isResult, rfl⟩
    · rintro ⟨⟨resultType, isType, sameType⟩, result, isResult, sameResult⟩
      refine ⟨resultType, result, isType, isResult, ?_⟩
      rw [← sameType, ← sameResult]
  · have fits := (ofItems_closed.mp isRead).1
    rwa [SyntaxTree.itemNodes_eq_map, List.length_map] at fits

end Data

namespace Envelope

theorem read_eq_ok_iff {tree : SyntaxTree}
    (once : ∀ fields, fields? envelopeNames tree = some fields → RepeatsNone envelopeNames fields)
    (envelope : Envelope) :
    reader.read tree.node = .ok envelope ↔
      ∃ fields, fields? envelopeNames tree = some fields ∧
        Filled readText "status" fields (some envelope.status) ∧
        Given readError "error" fields envelope.error ∧
        Given readErrorType "errorType" fields envelope.errorType ∧
        Given readData "data" fields envelope.data := by
  refine reader.read_eq_ok_iff ?_ fun items isRead => ?_
  · intro fields isFields
    have once := once fields isFields
    simp only [read_iff_reads (hasFields_of_fields? isFields), passesOver_nodesOf, and_true, Reads,
      given_iff, filled_iff_fills once (by decide : "status" ∈ envelopeNames),
      filled_iff_fills once (by decide : "error" ∈ envelopeNames),
      filled_iff_fills once (by decide : "errorType" ∈ envelopeNames),
      filled_iff_fills once (by decide : "data" ∈ envelopeNames)]
    constructor
    · rintro ⟨status, error, errorType, data, isStatus, isError, isErrorType, isData, rfl⟩
      exact ⟨isStatus, ⟨error, isError, rfl⟩, ⟨errorType, isErrorType, rfl⟩, data, isData, rfl⟩
    · rintro ⟨isStatus, ⟨error, isError, sameError⟩, ⟨errorType, isErrorType, sameType⟩, data,
        isData, sameData⟩
      refine ⟨_, error, errorType, data, isStatus, isError, isErrorType, isData, ?_⟩
      rw [← sameError, ← sameType, ← sameData]
  · have fits := (ofItems_closed.mp isRead).1
    rwa [SyntaxTree.itemNodes_eq_map, List.length_map] at fits

end Envelope

end MetricWatch.Response
