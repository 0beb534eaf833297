import MetricWatch.Proofs.Json.Writing
import MetricWatch.Proofs.Response.Acceptance

namespace MetricWatch.Response

open Json

/-! The answer of a backend that has found some series, and that nothing of it is lost when
the answer is parsed. -/

/-- A series as a backend knows it, with its time in whole seconds of the calendar. -/
structure Series where
  labels : Labels
  seconds : Int
  value : String
  notTooEarly : earliestSecond * 1000 ≤ seconds * 1000
  notTooLate : seconds * 1000 ≤ latestSecond * 1000 + 999

def Series.sample (series : Series) : Sample where
  labels := series.labels
  timestamp := ⟨series.seconds * 1000, series.notTooEarly, series.notTooLate⟩
  value := readNumericPrefix series.value.toList

/-- What is known of a series before its sample is taken. -/
def Series.item (series : Series) : Item where
  metric := series.labels.entries.map fun label => (label.1, .text label.2)
  seconds := .ofInt series.seconds
  value := .text series.value

theorem Series.labels_item (series : Series) : series.item.labels = series.labels := by
  have pairs : series.item.metric.map (fun entry => (entry.1, labelText entry.2)) =
      series.labels.entries := by
    rw [Series.item, List.map_map]
    exact List.map_id _
  rw [Item.labels, pairs, Labels.ofList, Labels.mk.injEq]
  exact Entries.ofList_of_ascending series.labels.ascending

theorem Series.natAbs_seconds_le (series : Series) : series.seconds.natAbs ≤ 8334601228800 := by
  have least := series.notTooEarly
  have most := series.notTooLate
  simp only [earliestSecond, latestSecond] at least most
  omega

theorem Series.sample_item (series : Series) : series.item.sample = .ok series.sample := by
  have small : series.seconds.natAbs * 1000 < 2 * Magnitude.stepsPerBinade :=
    Nat.lt_of_le_of_lt (Nat.mul_le_mul_right 1000 series.natAbs_seconds_le) (by decide)
  have whole : (series.item.seconds.timesNat 1000).truncated? = some (series.seconds * 1000) :=
    Binary64.truncated?_timesNat_ofInt (by decide) small
  have timestamp : timestampOfSeconds series.item.seconds = .ok series.sample.timestamp :=
    timestampOfSeconds_eq_ok_iff.mpr whole
  rw [Item.sample, timestamp, labels_item]
  rfl

theorem Series.isWhole_seconds (series : Series) :
    (Value.number (.whole series.seconds)).IsWhole := by
  have small := series.natAbs_seconds_le
  have fits : 8334601228800 < UInt64.size / 2 := by decide
  apply Value.IsWhole.number
  · omega
  · omega

/-- A writer is free to choose the order of the members of an object. -/
structure MemberOrder where
  arrange : List (String × Value) → List (String × Value)
  arrange_perm : ∀ members, (arrange members).Perm members

namespace MemberOrder

variable (order : MemberOrder)

def object (members : List (String × Value)) : Value :=
  .object (order.arrange members)

def labels (labels : Labels) : Value :=
  order.object (labels.entries.map fun label => (label.1, .text label.2))

def series (series : Series) : Value :=
  order.object [("metric", order.labels series.labels),
    ("value", .array [.number (.whole series.seconds), .text series.value])]

def data (found : List Series) : Value :=
  order.object [("resultType", .text "vector"), ("result", .array (found.map order.series))]

def success (found : List Series) : Value :=
  order.object [("status", .text "success"), ("data", order.data found)]

/-- The body of the answer. -/
def successBody (found : List Series) : List UInt8 :=
  Utf8.encode (order.success found).write

example :
    ((MemberOrder.mk id fun _ => .refl _).success
      [⟨Labels.ofList [("a", "1")], 1700000000, "3.5", by decide, by decide⟩]).toText =
        "\x7b\"status\":\"success\",\"data\":\x7b\"resultType\":\"vector\",\"result\":[" ++
          "\x7b\"metric\":\x7b\"a\":\"1\"\x7d,\"value\":[1700000000,\"3.5\"]\x7d]\x7d\x7d" := by
  decide +kernel

/-! The answer can be read. -/

theorem isWhole_object {members : List (String × Value)}
    (areWhole : ∀ member ∈ members, member.2.IsWhole) : (order.object members).IsWhole :=
  .object fun member isMember => areWhole member ((order.arrange_perm members).mem_iff.mp isMember)

theorem isWhole_labels (labels : Labels) : (order.labels labels).IsWhole := by
  apply order.isWhole_object
  intro member isMember
  rcases List.mem_map.mp isMember with ⟨label, _, rfl⟩
  exact .text label.2

theorem isWhole_series (series : Series) : (order.series series).IsWhole := by
  have pair : (Value.array [.number (.whole series.seconds), .text series.value]).IsWhole := by
    apply Value.IsWhole.array
    simp only [List.forall_mem_cons]
    exact ⟨series.isWhole_seconds, .text series.value, nofun⟩
  apply order.isWhole_object
  simp only [List.forall_mem_cons]
  exact ⟨order.isWhole_labels series.labels, pair, nofun⟩

theorem isWhole_success (found : List Series) : (order.success found).IsWhole := by
  have data : (order.data found).IsWhole := by
    apply order.isWhole_object
    simp only [List.forall_mem_cons]
    refine ⟨.text "vector", .array ?_, nofun⟩
    exact List.forall_mem_map.mpr fun series _ => order.isWhole_series series
  apply order.isWhole_object
  simp only [List.forall_mem_cons]
  exact ⟨.text "success", data, nofun⟩

/-! The order of the members does not matter. -/

section Members

variable {members : List (String × Value)} (differ : NamesDiffer members)

include differ

theorem lastNamed?_fields (name : String) :
    lastNamed? name (SyntaxTree.ofMembers (order.arrange members)) =
      (lastNamed? name members).map SyntaxTree.ofValue := by
  rw [SyntaxTree.ofMembers_eq_map, lastNamed?_map,
    lastNamed?_of_perm (order.arrange_perm members) differ]

theorem repeatsNone_fields {names : List String} {fields : List (String × SyntaxTree)}
    (isFields : fields? names (SyntaxTree.ofValue (order.object members)) = some fields) :
    RepeatsNone names fields := by
  have stillDiffer := (differ.of_perm (order.arrange_perm members)).map SyntaxTree.ofValue
  rw [← SyntaxTree.ofMembers_eq_map] at stillDiffer
  cases isFields
  exact repeatsNone_of_namesDiffer stillDiffer names

theorem value_object :
    (SyntaxTree.ofValue (order.object members)).value =
      .object (Entries.ofList (members.map fun member =>
        (member.1, (SyntaxTree.ofValue member.2).value))) := by
  have arranged := (order.arrange_perm members).map fun member =>
    (member.1, (SyntaxTree.ofValue member.2).value)
  have stillDiffer := differ.map fun value => (SyntaxTree.ofValue value).value
  rw [object, SyntaxTree.ofValue, SyntaxTree.value, SyntaxTree.memberValues_eq_map,
    SyntaxTree.ofMembers_eq_map, List.map_map]
  exact congrArg Value.object (Entries.ofList_of_perm arranged stillDiffer)

end Members

theorem depth_object_le {members : List (String × Value)} {bound : Nat}
    (fit : ∀ member ∈ members, (SyntaxTree.ofValue member.2).depth ≤ bound) :
    (SyntaxTree.ofValue (order.object members)).depth ≤ bound + 1 := by
  apply Nat.succ_le_succ
  apply SyntaxTree.membersDepth_le
  rw [SyntaxTree.ofMembers_eq_map]
  intro field isField
  rcases List.mem_map.mp isField with ⟨member, isMember, rfl⟩
  exact fit member ((order.arrange_perm members).mem_iff.mp isMember)

/-! Series. -/

theorem value_labels (labels : Labels) :
    (SyntaxTree.ofValue (order.labels labels)).value =
      .object (labels.entries.map fun label => (label.1, .text label.2)) := by
  have ascending :
      Entries.Ascending (labels.entries.map fun label => (label.1, Value.text label.2)) :=
    List.pairwise_map.mpr labels.ascending
  rw [MemberOrder.labels, order.value_object ascending.namesDiffer, List.map_map]
  exact congrArg Value.object (Entries.ofList_of_ascending ascending)

theorem depth_labels_le (labels : Labels) :
    (SyntaxTree.ofValue (order.labels labels)).depth ≤ 1 := by
  apply order.depth_object_le
  intro member isMember
  rcases List.mem_map.mp isMember with ⟨label, _, rfl⟩
  exact Nat.le_refl 0

theorem depth_series_le (series : Series) :
    (SyntaxTree.ofValue (order.series series)).depth ≤ 2 := by
  apply order.depth_object_le
  simp only [List.forall_mem_cons]
  exact ⟨order.depth_labels_le series.labels, Nat.le_refl 1, nofun⟩

theorem item_series (series : Series) :
    Item.ofValue (SyntaxTree.ofValue (order.series series)).value = .ok series.item := by
  have differ := NamesDiffer.pair (show "metric" ≠ "value" by decide) (order.labels series.labels)
    (.array [.number (.whole series.seconds), .text series.value])
  rw [MemberOrder.series, order.value_object differ, Item.ofValue, Item.ofMembers,
    Entries.find?_ofList, Entries.find?_ofList]
  simp only [List.map, order.value_labels]
  rfl

/-! The answer. -/

def result (found : List Series) : SyntaxTree :=
  SyntaxTree.ofValue (.array (found.map order.series))

theorem items_result (found : List Series) :
    Item.listOfValue (order.result found).value = .ok (found.map Series.item) := by
  rw [result, SyntaxTree.ofValue, SyntaxTree.value, SyntaxTree.itemValues_eq_map,
    SyntaxTree.ofItems_eq_map, List.map_map, List.map_map, Item.listOfValue]
  exact mapM_map_eq_ok order.item_series found

theorem depth_result_le (found : List Series) : (order.result found).depth ≤ 3 := by
  apply Nat.succ_le_succ
  apply SyntaxTree.itemsDepth_le
  rw [SyntaxTree.ofItems_eq_map, List.map_map]
  intro item isItem
  rcases List.mem_map.mp isItem with ⟨series, _, rfl⟩
  exact order.depth_series_le series

theorem read_data (found : List Series) :
    Data.reader.read (SyntaxTree.ofValue (order.data found)).node =
      .ok ⟨some "vector", some (order.result found).value⟩ := by
  have differ := NamesDiffer.pair (show "resultType" ≠ "result" by decide) (Value.text "vector")
    (.array (found.map order.series))
  have fits : (order.result found).depth ≤ depthInData :=
    Nat.le_trans (order.depth_result_le found) (by decide)
  have isResultType : lastNamed? "resultType" _ = some (SyntaxTree.text "vector") :=
    order.lastNamed?_fields differ "resultType"
  have isResult : lastNamed? "result" _ = some (order.result found) :=
    order.lastNamed?_fields differ "result"
  rw [MemberOrder.data, Data.read_eq_ok_iff fun _ => order.repeatsNone_fields differ]
  exact ⟨_, rfl, given_some_iff.mpr ⟨_, isResultType, nofun, readText_node.mpr rfl⟩,
    given_some_iff.mpr ⟨_, isResult, nofun, readValue_node fits⟩⟩

def envelope (found : List Series) : Envelope :=
  ⟨"success", none, none, some ⟨some "vector", some (order.result found).value⟩⟩

theorem read_success (found : List Series) :
    Envelope.reader.read (SyntaxTree.ofValue (order.success found)).node =
      .ok (order.envelope found) := by
  have differ := NamesDiffer.pair (show "status" ≠ "data" by decide) (Value.text "success")
    (order.data found)
  have isStatus : lastNamed? "status" _ = some (SyntaxTree.text "success") :=
    order.lastNamed?_fields differ "status"
  have noError : lastNamed? "error" _ = none := order.lastNamed?_fields differ "error"
  have noErrorType : lastNamed? "errorType" _ = none := order.lastNamed?_fields differ "errorType"
  have isData : lastNamed? "data" _ = some (SyntaxTree.ofValue (order.data found)) :=
    order.lastNamed?_fields differ "data"
  rw [MemberOrder.success, Envelope.read_eq_ok_iff fun _ => order.repeatsNone_fields differ]
  refine ⟨_, rfl, ?_, ?_, ?_, given_some_iff.mpr ⟨_, isData, nofun, order.read_data found⟩⟩
  · rw [Filled, isStatus]
    exact ⟨"success", readText_node.mpr rfl, rfl⟩
  · rw [Given, noError]
    rfl
  · rw [Given, noErrorType]
    rfl

theorem decode_successBody (found : List Series) :
    decode (order.successBody found) = .ok (.series (found.map Series.item)) := by
  have isRead : Envelope.ofDocument ⟨(SyntaxTree.ofValue (order.success found)).node, true⟩ =
      .ok (order.envelope found) := by
    rw [Envelope.ofDocument, order.read_success]
    rfl
  have isResult : (order.envelope found).result = .ok (order.result found).value := rfl
  have verdict : (order.envelope found).verdict = .ok (.series (found.map Series.item)) := by
    have success : (order.envelope found).status = "success" := rfl
    rw [Envelope.verdict, if_pos success, isResult, bind_eq_ok_iff]
    exact ⟨_, rfl, bind_eq_ok_iff.mpr
      ⟨_, mapError_eq_ok_iff.mpr (order.items_result found), rfl⟩⟩
  rw [decode, successBody, Grammar.ofBytes_write (order.isWhole_success found), bind_eq_ok_iff]
  exact ⟨_, mapError_eq_ok_iff.mpr isRead, verdict⟩

end MemberOrder

/-- The samples of all series come out of the answer, in their order, and nothing else does. -/
theorem parse_successBody (order : MemberOrder) (first : Series) (others : List Series) :
    parse (order.successBody (first :: others)) =
      .ok (some ((first :: others).map Series.sample)) := by
  have samples : (Verdict.series ((first :: others).map Series.item)).samples? =
      .ok (some ((first :: others).map Series.sample)) := by
    have each := mapM_map_eq_ok Series.sample_item (first :: others)
    rw [List.map_cons] at each ⊢
    rw [Verdict.samples?, each]
    · rfl
    · exact List.cons_ne_nil _ _
  rw [parse, bind_eq_ok_iff]
  exact ⟨_, order.decode_successBody (first :: others), samples⟩

end MetricWatch.Response
