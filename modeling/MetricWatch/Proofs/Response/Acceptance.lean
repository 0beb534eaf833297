import MetricWatch.Proofs.Json.Reading
import MetricWatch.Proofs.Response.InstantVector

namespace MetricWatch.Response

open Json

/-! Samples come out of a response exactly if it is an instant vector. -/

section Values

variable {tree : SyntaxTree}

theorem isNull_node : isNull tree.node = true ↔ tree = .literal .null := by
  cases tree with
  | literal atom => cases atom <;> simp [SyntaxTree.node, SyntaxTree.faultless, isNull]
  | text content => simp [SyntaxTree.node, isNull]
  | array items => simp [SyntaxTree.node, isNull]
  | object members => simp [SyntaxTree.node, isNull]

theorem readText_node {content : String} :
    readText tree.node = .ok content ↔ tree = .text content := by
  cases tree with
  | literal atom => simp [SyntaxTree.node, readText, bind_eq_ok_iff, wrongLiteral]
  | text content =>
      simp [SyntaxTree.node, SyntaxTree.faultless, readText, inDocument, mapError_eq_ok_iff]
  | array items => simp [SyntaxTree.node, readText]
  | object members => simp [SyntaxTree.node, readText]

section Optional

variable {Content : Type} {read : NodeReader Content}

theorem readOptional_eq_none :
    readOptional read tree.node = .ok none ↔ tree = .literal .null := by
  rw [← isNull_node, readOptional]
  cases isNull tree.node with
  | true => simp
  | false => cases read tree.node <;> simp [Except.map]

theorem readOptional_eq_some {content : Content} :
    readOptional read tree.node = .ok (some content) ↔
      tree ≠ .literal .null ∧ read tree.node = .ok content := by
  rw [ne_eq, ← isNull_node, readOptional]
  cases isNull tree.node with
  | true => simp
  | false => cases read tree.node <;> simp [Except.map]

end Optional

theorem isOptionalText_iff :
    IsOptionalText tree ↔ ∃ content, readOptional readText tree.node = .ok content := by
  constructor
  · rintro (isNull | ⟨content, isText⟩)
    · exact ⟨none, readOptional_eq_none.mpr isNull⟩
    · refine ⟨some content, readOptional_eq_some.mpr ⟨?_, readText_node.mpr isText⟩⟩
      simp [isText]
  · rintro ⟨content, isRead⟩
    cases content with
    | none => exact .inl (readOptional_eq_none.mp isRead)
    | some content => exact .inr ⟨content, readText_node.mp (readOptional_eq_some.mp isRead).2⟩

theorem readValue_node {depth : Nat} (fits : tree.depth ≤ depth) :
    readValue depth tree.node = .ok tree.value := by
  rw [readValue, tree.toValue_node fits]
  rfl

end Values

/-! Items. -/

namespace Item

variable {tree : SyntaxTree}

theorem readMetric_value {metric : Entries Value} :
    readMetric tree.value = .ok metric ↔
      ∃ members, tree = .object members ∧
        metric = Entries.ofList (SyntaxTree.memberValues members) := by
  cases tree with
  | literal atom => cases atom <;> simp [SyntaxTree.value, Value.ofLiteral, readMetric, wrongValue]
  | text content => simp [SyntaxTree.value, readMetric, wrongValue]
  | array items => simp [SyntaxTree.value, readMetric, wrongValue]
  | object members => simp [SyntaxTree.value, readMetric, eq_comm]

theorem readSeconds_value {seconds : Binary64} :
    readSeconds tree.value = .ok seconds ↔
      ∃ number, tree = .literal (.number number) ∧ seconds = number.toBinary64 := by
  cases tree with
  | literal atom =>
      cases atom <;> simp [SyntaxTree.value, Value.ofLiteral, readSeconds, wrongValue, eq_comm]
  | text content => simp [SyntaxTree.value, readSeconds, wrongValue]
  | array items => simp [SyntaxTree.value, readSeconds, wrongValue]
  | object members => simp [SyntaxTree.value, readSeconds, wrongValue]

theorem readPair_value {seconds : Binary64} {value : Value} :
    readPair tree.value = .ok (seconds, value) ↔
      ∃ number content, tree = .array [.literal (.number number), content] ∧
        seconds = number.toBinary64 ∧ value = content.value := by
  cases tree with
  | literal atom => cases atom <;> simp [SyntaxTree.value, Value.ofLiteral, readPair, wrongValue]
  | text content => simp [SyntaxTree.value, readPair, wrongValue]
  | object members => simp [SyntaxTree.value, readPair, wrongValue]
  | array items =>
      rcases items with _ | ⟨first, _ | ⟨second, _ | ⟨third, others⟩⟩⟩
      · simp [SyntaxTree.value, SyntaxTree.itemValues, readPair]
      · simp [SyntaxTree.value, SyntaxTree.itemValues, readPair, bind_eq_ok_iff]
      · simp [SyntaxTree.value, SyntaxTree.itemValues, readPair, bind_eq_ok_iff, readSeconds_value]
        grind
      · simp [SyntaxTree.value, SyntaxTree.itemValues, readPair, bind_eq_ok_iff]

theorem find?_memberValues (members : List (String × SyntaxTree)) (name : String) :
    (Entries.ofList (SyntaxTree.memberValues members)).find? name =
      (lastNamed? name members).map SyntaxTree.value := by
  rw [Entries.find?_ofList, SyntaxTree.memberValues_eq_map, lastNamed?_map]

/-- The time that an item names, with its labels in sound shape. -/
def Names (fields : List (String × SyntaxTree)) (seconds : Number) : Prop :=
  (∀ metric, lastNamed? "metric" fields = some metric → ∃ labels, metric = .object labels) ∧
    ∃ value, lastNamed? "value" fields = some (.array [.literal (.number seconds), value])

theorem ofMembers_iff {members : List (String × SyntaxTree)} {seconds : Binary64} :
    (∃ item, ofMembers (Entries.ofList (SyntaxTree.memberValues members)) = .ok item ∧
      item.seconds = seconds) ↔
      ∃ number, Names members number ∧ seconds = number.toBinary64 := by
  simp only [ofMembers, find?_memberValues, Names]
  cases lastNamed? "value" members with
  | none => cases lastNamed? "metric" members <;> simp [bind_eq_ok_iff]
  | some pair =>
      cases lastNamed? "metric" members with
      | none =>
          simp [bind_eq_ok_iff, readPair_value, pure, Except.pure]
          grind
      | some metric =>
          simp [bind_eq_ok_iff, readPair_value, readMetric_value, pure, Except.pure]
          grind

theorem ofItems_iff {items : List SyntaxTree} {seconds : Binary64} :
    (∃ item, ofItems (SyntaxTree.itemValues items) = .ok item ∧ item.seconds = seconds) ↔
      items.length ≤ itemNames.length ∧
        ∃ number, Names (itemNames.zip items) number ∧ seconds = number.toBinary64 := by
  simp only [Names, itemNames, lastNamed?, Entries.find?]
  rcases items with _ | ⟨first, _ | ⟨second, _ | ⟨third, others⟩⟩⟩
  · simp [SyntaxTree.itemValues, ofItems]
  · simp [SyntaxTree.itemValues, ofItems, bind_eq_ok_iff]
  · simp [SyntaxTree.itemValues, ofItems, bind_eq_ok_iff, readMetric_value, readPair_value, pure,
      Except.pure]
    grind
  · simp [SyntaxTree.itemValues, ofItems, bind_eq_ok_iff]

theorem ofValue_iff {seconds : Binary64} :
    (∃ item, ofValue tree.value = .ok item ∧ item.seconds = seconds) ↔
      ∃ fields number, fields? itemNames tree = some fields ∧ Names fields number ∧
        seconds = number.toBinary64 := by
  cases tree with
  | literal atom =>
      cases atom <;> simp [SyntaxTree.value, Value.ofLiteral, ofValue, wrongValue, fields?]
  | text content => simp [SyntaxTree.value, ofValue, wrongValue, fields?]
  | object members =>
      simpa [SyntaxTree.value, ofValue, fields?] using ofMembers_iff
  | array items =>
      simpa [SyntaxTree.value, ofValue, fields?, and_assoc] using ofItems_iff

end Item

theorem ofMilliseconds?_iff {milliseconds : Int} :
    (∃ timestamp, Timestamp.ofMilliseconds? milliseconds = some timestamp) ↔
      -8334601228800000 ≤ milliseconds ∧ milliseconds ≤ 8210266876799999 := by
  unfold Timestamp.ofMilliseconds?
  split
  · rename_i bounded
    simp only [earliestSecond, latestSecond] at bounded
    exact ⟨fun _ => by omega, fun _ => ⟨_, rfl⟩⟩
  · rename_i notBounded
    simp only [earliestSecond, latestSecond] at notBounded
    constructor
    · rintro ⟨_, impossible⟩
      cases impossible
    · intro bounded
      exact absurd ⟨by omega, by omega⟩ notBounded

theorem timestampOfSeconds_iff {seconds : Number} :
    (∃ timestamp, timestampOfSeconds seconds.toBinary64 = .ok timestamp) ↔ IsTime seconds := by
  unfold IsTime
  simp only [timestampOfSeconds_eq_ok_iff, ← ofMilliseconds?_iff,
    Timestamp.ofMilliseconds?_eq_some_iff]
  constructor
  · rintro ⟨timestamp, truncated⟩
    exact ⟨_, truncated, timestamp, rfl⟩
  · rintro ⟨_, truncated, timestamp, rfl⟩
    exact ⟨timestamp, truncated⟩

theorem sample_iff {item : Item} :
    (∃ sample, item.sample = .ok sample) ↔
      ∃ timestamp, timestampOfSeconds item.seconds = .ok timestamp := by
  simp only [Item.sample, bind_eq_ok_iff]
  constructor
  · rintro ⟨_, timestamp, isTimestamp, _⟩
    exact ⟨timestamp, isTimestamp⟩
  · rintro ⟨timestamp, isTimestamp⟩
    exact ⟨_, timestamp, isTimestamp, rfl⟩

theorem isSeries_iff {tree : SyntaxTree} :
    IsSeries tree ↔
      ∃ item, Item.ofValue tree.value = .ok item ∧ ∃ sample, item.sample = .ok sample := by
  constructor
  · rintro ⟨fields, isFields, metric, seconds, value, isPair, isTime⟩
    rcases Item.ofValue_iff.mpr ⟨fields, seconds, isFields, ⟨metric, value, isPair⟩, rfl⟩ with
      ⟨item, isItem, same⟩
    refine ⟨item, isItem, sample_iff.mpr ?_⟩
    rw [same]
    exact timestampOfSeconds_iff.mpr isTime
  · rintro ⟨item, isItem, isSample⟩
    rcases Item.ofValue_iff.mp ⟨item, isItem, rfl⟩ with
      ⟨fields, seconds, isFields, ⟨metric, value, isPair⟩, same⟩
    rw [sample_iff, same] at isSample
    exact ⟨fields, isFields, metric, seconds, value, isPair, timestampOfSeconds_iff.mp isSample⟩

/-! The result of a query. -/

theorem listOfValue_iff {tree : SyntaxTree} :
    (∃ items, Item.listOfValue tree.value = .ok items ∧
      ∀ item ∈ items, ∃ sample, item.sample = .ok sample) ↔
        ∃ items, tree = .array items ∧ ∀ item ∈ items, IsSeries item := by
  cases tree with
  | literal atom =>
      cases atom <;> simp [SyntaxTree.value, Value.ofLiteral, Item.listOfValue, Item.wrongValue]
  | text content => simp [SyntaxTree.value, Item.listOfValue, Item.wrongValue]
  | object members => simp [SyntaxTree.value, Item.listOfValue, Item.wrongValue]
  | array items =>
      simp only [SyntaxTree.value, Item.listOfValue, mapM_all_iff, SyntaxTree.itemValues_eq_map,
        List.forall_mem_map, ← isSeries_iff, SyntaxTree.array.injEq, exists_eq_left']

theorem samples?_series_iff {items : List Item} :
    (∃ samples, (Verdict.series items).samples? = .ok samples) ↔
      ∀ item ∈ items, ∃ sample, item.sample = .ok sample := by
  have all := @mapM_all_iff _ _ _ Item.sample (fun _ => True) items
  simp only [implies_true, and_true] at all
  rw [← all]
  cases items with
  | nil => simp [Verdict.samples?, pure, Except.pure]
  | cons first others =>
      simp only [Verdict.samples?]
      cases (first :: others).mapM Item.sample <;> simp [Except.map]

/-- What data and an envelope must hold for samples to come out of them. -/
def Data.HoldsSamples (data : Data) : Prop :=
  (data.resultType = none ∨ data.resultType = some "vector") ∧
    ∃ result, data.result = some result ∧ ∃ items, Item.listOfValue result = .ok items ∧
      ∀ item ∈ items, ∃ sample, item.sample = .ok sample

namespace Envelope

def HoldsSamples (envelope : Envelope) : Prop :=
  envelope.status = "success" ∧ ∃ data, envelope.data = some data ∧ data.HoldsSamples

theorem isVector_iff {name : Option String} {done : Unit} :
    isVector name = .ok done ↔ name = none ∨ name = some "vector" := by
  cases name with
  | none => simp [isVector]
  | some name => by_cases same : name = "vector" <;> simp [isVector, same]

theorem result_eq_ok_iff {envelope : Envelope} {result : Value} :
    envelope.result = .ok result ↔ ∃ data, envelope.data = some data ∧
      (data.resultType = none ∨ data.resultType = some "vector") ∧ data.result = some result := by
  rw [Envelope.result]
  cases envelope.data with
  | none => simp
  | some data =>
      simp only [bind_eq_ok_iff, isVector_iff, Option.some.injEq, exists_eq_left', exists_const]
      refine and_congr_right fun _ => ?_
      cases data.result <;> simp [pure, Except.pure]

theorem samples_iff {envelope : Envelope} :
    (∃ samples, (envelope.verdict >>= fun verdict => verdict.samples?) = .ok samples) ↔
      envelope.HoldsSamples := by
  by_cases success : envelope.status = "success"
  · simp only [HoldsSamples, Data.HoldsSamples, verdict, success, if_true, bind_eq_ok_iff,
      result_eq_ok_iff]
    simp only [mapError_eq_ok_iff, true_and]
    constructor
    · rintro ⟨samples, _, ⟨result, ⟨data, isData, isVector, isResult⟩, items, areItems, done⟩,
        isSample⟩
      cases done
      exact ⟨data, isData, isVector, result, isResult, items, areItems,
        samples?_series_iff.mp ⟨samples, isSample⟩⟩
    · rintro ⟨data, isData, isVector, result, isResult, items, areItems, all⟩
      rcases samples?_series_iff.mpr all with ⟨samples, areSamples⟩
      exact ⟨samples, _, ⟨result, ⟨data, isData, isVector, isResult⟩, items, areItems, rfl⟩,
        areSamples⟩
  · simp [HoldsSamples, verdict, success, bind_eq_ok_iff, pure, Except.pure, Verdict.samples?]

end Envelope

/-! From the fields of the envelope to the document. -/

theorem depth_lt_of_mem_fields {names : List String} {tree : SyntaxTree}
    {fields : List (String × SyntaxTree)} (isFields : fields? names tree = some fields)
    {name : String} {field : SyntaxTree} (member : (name, field) ∈ fields) :
    field.depth < tree.depth := by
  cases tree with
  | literal atom => cases isFields
  | text content => cases isFields
  | object members =>
      cases isFields
      exact Nat.lt_succ_of_le (SyntaxTree.depth_le_membersDepth member)
  | array items =>
      simp only [fields?, Option.ite_none_right_eq_some, Option.some.injEq] at isFields
      rw [← isFields.2] at member
      exact Nat.lt_succ_of_le (SyntaxTree.depth_le_itemsDepth (List.of_mem_zip member).2)

section Fields

variable {fields : List (String × SyntaxTree)} {name : String}

theorem given_exists_iff {Content : Type} {read : NodeReader (Option Content)}
    {Holds : Option Content → Prop} (holdsIfMissing : Holds none) :
    (∃ content, Given read name fields content ∧ Holds content) ↔
      ∀ tree, lastNamed? name fields = some tree →
        ∃ content, read tree.node = .ok content ∧ Holds content := by
  unfold Given
  cases lastNamed? name fields with
  | none => simpa using holdsIfMissing
  | some tree => simp

theorem given_some_iff {Content : Type} {read : NodeReader Content} {content : Content} :
    Given (readOptional read) name fields (some content) ↔
      ∃ tree, lastNamed? name fields = some tree ∧ tree ≠ .literal .null ∧
        read tree.node = .ok content := by
  unfold Given
  cases lastNamed? name fields with
  | none => simp
  | some tree => simp [readOptional_eq_some]

end Fields

theorem readResultType_iff {tree : SyntaxTree} :
    (∃ kind, Data.readResultType tree.node = .ok kind ∧ (kind = none ∨ kind = some "vector")) ↔
      tree = .literal .null ∨ tree = .text "vector" := by
  constructor
  · rintro ⟨_, isRead, rfl | rfl⟩
    · exact .inl (readOptional_eq_none.mp isRead)
    · exact .inr (readText_node.mp (readOptional_eq_some.mp isRead).2)
  · rintro (isNull | isVector)
    · exact ⟨none, readOptional_eq_none.mpr isNull, .inl rfl⟩
    · refine ⟨some "vector", readOptional_eq_some.mpr ⟨?_, readText_node.mpr isVector⟩, .inr rfl⟩
      simp [isVector]

theorem isVectorData_iff {tree : SyntaxTree} (fits : tree.depth ≤ depthInEnvelope)
    (once : ∀ fields, fields? dataNames tree = some fields → RepeatsNone dataNames fields) :
    IsVectorData tree ↔ ∃ data, Data.reader.read tree.node = .ok data ∧ data.HoldsSamples := by
  simp only [Data.read_eq_ok_iff once]
  constructor
  · rintro ⟨fields, isFields, isKind, items, areItems, all⟩
    have missing : (none : Option String) = none ∨ none = some "vector" := .inl rfl
    rcases (given_exists_iff missing).mpr fun kind isNamed =>
      readResultType_iff.mpr (isKind kind isNamed) with ⟨kind, isGiven, isVector⟩
    have shallow := depth_lt_of_mem_fields isFields (mem_of_lastNamed? areItems)
    have fitsData : (SyntaxTree.array items).depth ≤ depthInData :=
      Nat.le_of_lt_succ (Nat.lt_of_lt_of_le shallow fits)
    refine ⟨⟨kind, some (SyntaxTree.array items).value⟩, ⟨fields, isFields, isGiven, ?_⟩,
      isVector, _, rfl, listOfValue_iff.mpr ⟨items, rfl, all⟩⟩
    exact given_some_iff.mpr ⟨_, areItems, by simp, readValue_node fitsData⟩
  · rintro ⟨data, ⟨fields, isFields, isKind, isResult⟩, isVector, result, isSome, held⟩
    have missing : (none : Option String) = none ∨ none = some "vector" := .inl rfl
    rw [isSome] at isResult
    rcases given_some_iff.mp isResult with ⟨last, isLast, _, isValue⟩
    have shallow := depth_lt_of_mem_fields isFields (mem_of_lastNamed? isLast)
    have fitsData : last.depth ≤ depthInData :=
      Nat.le_of_lt_succ (Nat.lt_of_lt_of_le shallow fits)
    rw [readValue_node fitsData, Except.ok.injEq] at isValue
    rw [← isValue] at held
    rcases listOfValue_iff.mp held with ⟨items, rfl, all⟩
    refine ⟨fields, isFields, fun kind isNamed => ?_, items, isLast, all⟩
    exact readResultType_iff.mp
      ((given_exists_iff missing).mp ⟨data.resultType, isKind, isVector⟩ kind isNamed)

theorem readError_node {tree : SyntaxTree} (fits : tree.depth ≤ depthInEnvelope) :
    ∃ error, Envelope.readError tree.node = .ok error := by
  by_cases isNull : tree = .literal .null
  · exact ⟨none, readOptional_eq_none.mpr isNull⟩
  · exact ⟨some tree.value, readOptional_eq_some.mpr ⟨isNull, readValue_node fits⟩⟩

theorem isInstantVector_iff {tree : SyntaxTree} (fits : tree.depth ≤ nestingLimit)
    (once : NamesFieldsOnce tree) :
    IsInstantVector tree ↔
      ∃ envelope, Envelope.reader.read tree.node = .ok envelope ∧ envelope.HoldsSamples := by
  have fitsField : ∀ {fields name field}, fields? envelopeNames tree = some fields →
      lastNamed? name fields = some field → field.depth ≤ depthInEnvelope :=
    fun isFields isNamed => Nat.le_of_lt_succ
      (Nat.lt_of_lt_of_le (depth_lt_of_mem_fields isFields (mem_of_lastNamed? isNamed)) fits)
  simp only [Envelope.read_eq_ok_iff fun fields isFields => (once fields isFields).1]
  constructor
  · rintro ⟨fields, isFields, isStatus, isErrorType, last, isLast, isData⟩
    have onceInData := (once fields isFields).2 last (mem_of_lastNamed? isLast)
    rcases (isVectorData_iff (fitsField isFields isLast) onceInData).mp isData with
      ⟨data, isRead, held⟩
    have errorRead : ∀ tree, lastNamed? "error" fields = some tree →
        ∃ error, Envelope.readError tree.node = .ok error ∧ True := by
      intro error isNamed
      rcases readError_node (fitsField isFields isNamed) with ⟨content, isRead⟩
      exact ⟨content, isRead, trivial⟩
    have errorTypeRead : ∀ tree, lastNamed? "errorType" fields = some tree →
        ∃ errorType, Envelope.readErrorType tree.node = .ok errorType ∧ True := by
      intro errorType isNamed
      rcases isOptionalText_iff.mp (isErrorType errorType isNamed) with ⟨content, isRead⟩
      exact ⟨content, isRead, trivial⟩
    rcases (given_exists_iff trivial).mpr errorRead with ⟨error, isError, _⟩
    rcases (given_exists_iff trivial).mpr errorTypeRead with ⟨errorType, isErrorType, _⟩
    refine ⟨⟨"success", error, errorType, some data⟩,
      ⟨fields, isFields, ?_, isError, isErrorType, ?_⟩, rfl, data, rfl, held⟩
    · rw [Filled, isStatus]
      exact ⟨"success", readText_node.mpr rfl, rfl⟩
    · refine given_some_iff.mpr ⟨last, isLast, ?_, isRead⟩
      rintro rfl
      rcases isData with ⟨_, impossible, _⟩
      cases impossible
  · rintro ⟨envelope, ⟨fields, isFields, isStatus, _, isErrorType, isData⟩, success, data, isSome,
      held⟩
    rw [isSome] at isData
    rcases given_some_iff.mp isData with ⟨last, isLast, _, isRead⟩
    have onceInData := (once fields isFields).2 last (mem_of_lastNamed? isLast)
    refine ⟨fields, isFields, ?_, fun errorType isNamed => ?_, last, isLast,
      (isVectorData_iff (fitsField isFields isLast) onceInData).mpr ⟨data, isRead, held⟩⟩
    · unfold Filled at isStatus
      split at isStatus
      · cases isStatus
      · rename_i status isNamed
        rcases isStatus with ⟨content, isText, same⟩
        cases same
        rw [isNamed, readText_node.mp isText, success]
    · have given : ∃ content,
          Given Envelope.readErrorType "errorType" fields content ∧ True :=
        ⟨_, isErrorType, trivial⟩
      rcases (given_exists_iff trivial).mp given errorType isNamed with ⟨content, isRead, _⟩
      exact isOptionalText_iff.mpr ⟨content, isRead⟩

/-- A document gives samples, or tells that there are none, exactly if it is an instant
vector. -/
theorem parse_ok_iff_isInstantVector {tree : SyntaxTree} {body : List UInt8}
    (encodes : Grammar.Encodes tree body) (fits : tree.depth ≤ 127)
    (once : NamesFieldsOnce tree) :
    (∃ samples, parse body = .ok samples) ↔ IsInstantVector tree := by
  rw [isInstantVector_iff fits once]
  simp only [parse, decode, encodes.ofBytes, Envelope.ofDocument, if_true, bind_assoc,
    ← Envelope.samples_iff, bind_eq_ok_iff, mapError_eq_ok_iff]
  constructor
  · rintro ⟨samples, envelope, ⟨_, isEnvelope, same⟩, content, isVerdict, areSamples⟩
    cases same
    exact ⟨envelope, isEnvelope, samples, content, isVerdict, areSamples⟩
  · rintro ⟨envelope, isEnvelope, samples, content, isVerdict, areSamples⟩
    exact ⟨samples, envelope, ⟨envelope, isEnvelope, rfl⟩, content, isVerdict, areSamples⟩

/-! An envelope that is written as an array, with data and a series written as objects. -/

def oneSeries : SyntaxTree :=
  .object [("value", .array [.literal (.number (.whole 7)), .text "1"])]

def oneSeriesData : SyntaxTree :=
  .object [("result", .array [oneSeries])]

def oneSeriesEnvelope : SyntaxTree :=
  .array [.text "success", .literal .null, .literal .null, oneSeriesData]

def oneSeriesText : String :=
  "[\"success\",null,null,\x7b\"result\": [\x7b\"value\":[7,\"1\"]\x7d]\x7d]"

theorem oneSeries_encodes :
    Grammar.Encodes oneSeriesEnvelope (Utf8.encode oneSeriesText.toList) := by
  have blanks : Grammar.Blanks [] := by simp [Grammar.Blanks]
  have blank : Grammar.Blanks [' '] := by simp [Grammar.Blanks, Token.isBlank]
  have null : Grammar.Spells (.literal .null) ['n', 'u', 'l', 'l'] := .literal .null
  have numeral : Grammar.Numeral ⟨false, ['7'], none, none⟩ ['7'] :=
    .of (.digits (by decide) (by simp [Grammar.Digits, isDecimalDigit])) .absent .absent
  have reads : Spelling.Reads ⟨false, ['7'], none, none⟩ (.whole 7) :=
    .whole (.natural rfl rfl rfl (by decide))
  have seven : Grammar.Spells (.literal (.number (.whole 7))) ['7'] :=
    .literal (.number numeral reads)
  have pair := Grammar.Spells.array blanks seven
    (.comma blanks blanks (.text (.ofPlain "1" (by simp [Quoted.isControl]))) (.close blanks))
  have series := Grammar.Spells.object blanks
    (.of (.ofPlain "value" (by simp [Quoted.isControl])) blanks blanks pair) (.close blanks)
  have data := Grammar.Spells.object blanks
    (.of (.ofPlain "result" (by simp [Quoted.isControl])) blanks blank
      (.array blanks series (.close blanks))) (.close blanks)
  have envelope := Grammar.Spells.array blanks
    (.text (.ofPlain "success" (by simp [Quoted.isControl])))
    (.comma blanks blanks null (.comma blanks blanks null
      (.comma blanks blanks data (.close blanks))))
  exact .of blanks envelope blanks

theorem oneSeries_isInstantVector : IsInstantVector oneSeriesEnvelope := by
  have isTime : IsTime (.whole 7) := ⟨7000, by decide +kernel, by decide, by decide⟩
  have isSeries : IsSeries oneSeries := ⟨_, rfl, nofun, .whole 7, .text "1", rfl, isTime⟩
  have isData : IsVectorData oneSeriesData :=
    ⟨_, rfl, nofun, _, rfl, List.forall_mem_singleton.mpr isSeries⟩
  exact ⟨_, rfl, rfl, fun _ isNull => .inl (Option.some.inj isNull).symm, _, rfl, isData⟩

theorem oneSeries_namesFieldsOnce : NamesFieldsOnce oneSeriesEnvelope := by
  intro envelope isEnvelope
  cases isEnvelope
  refine ⟨by simp [RepeatsNone, envelopeNames], fun data isData fields isFields => ?_⟩
  have isLast : data = oneSeriesData := by simpa [envelopeNames] using isData
  subst isLast
  cases isFields
  simp [RepeatsNone, dataNames]

theorem oneSeries_isParsed :
    oneSeriesEnvelope.depth ≤ 127 ∧ NamesFieldsOnce oneSeriesEnvelope ∧
      ∃ samples, parse (Utf8.encode oneSeriesText.toList) = .ok samples :=
  ⟨by decide, oneSeries_namesFieldsOnce,
    (parse_ok_iff_isInstantVector oneSeries_encodes (by decide) oneSeries_namesFieldsOnce).mpr
      oneSeries_isInstantVector⟩

end MetricWatch.Response
