import MetricWatch.Proofs.Json.Writing
import MetricWatch.Proofs.Response.Acceptance

namespace MetricWatch.Response

open Json

/-! The elements of a result become samples all together or not at all. Every element is
decoded before the time of the first one is looked at, so an element of a wrong shape counts
before one whose time is out of range, wherever they stand. -/

/-- The body is sound down to its result, which has these elements. -/
def Lists (body : List UInt8) (elements : List Value) : Prop :=
  ∃ envelope data, Envelope.ofDocument (.ofBytes body) = .ok envelope ∧
    envelope.status = "success" ∧ envelope.data = some data ∧
    (data.resultType = none ∨ data.resultType = some "vector") ∧
    data.result = some (.array elements)

def IsItem (element : Value) : Prop :=
  ∃ item, Item.ofValue element = .ok item

def IsTimely (element : Value) : Prop :=
  ∃ item timestamp, Item.ofValue element = .ok item ∧
    timestampOfSeconds item.seconds = .ok timestamp

/-- An element gives its sample by itself, whatever stands around it. -/
def Gives (element : Value) (sample : Sample) : Prop :=
  ∃ item, Item.ofValue element = .ok item ∧ item.sample = .ok sample

/-- What comes out of a list of elements. -/
structure MapsAll (elements : List Value) (outcome : Except Failure (Option (List Sample))) :
    Prop where
  undecoded : (∃ element ∈ elements, ¬ IsItem element) →
    ∃ front element back defect, elements = front ++ element :: back ∧
      (∀ earlier ∈ front, IsItem earlier) ∧ Item.ofValue element = .error defect ∧
      outcome = .error (.malformed defect)
  untimely : (∀ element ∈ elements, IsItem element) →
    (∃ element ∈ elements, ¬ IsTimely element) →
      ∃ front element back item mismatch, elements = front ++ element :: back ∧
        (∀ earlier ∈ front, IsTimely earlier) ∧ Item.ofValue element = .ok item ∧
        timestampOfSeconds item.seconds = .error (.unsuitable mismatch) ∧
        outcome = .error (.unsuitable mismatch)
  accepted : (∀ element ∈ elements, IsTimely element) →
    ∃ samples, List.Forall₂ Gives elements samples ∧
      outcome = .ok (if elements = [] then none else some samples)
  complete : ∀ {samples}, outcome = .ok (some samples) → List.Forall₂ Gives elements samples

/-! An element alone. -/

def sampleOf (element : Value) : Except Failure Sample := do
  let item ← (Item.ofValue element).mapError .malformed
  item.sample

theorem sampleOf_of_isItem {element : Value} {item : Item}
    (isItem : Item.ofValue element = .ok item) : sampleOf element = item.sample := by
  rw [sampleOf, isItem]
  rfl

theorem gives_iff {element : Value} {sample : Sample} :
    Gives element sample ↔ sampleOf element = .ok sample := by
  simp only [Gives, sampleOf, bind_eq_ok_iff, mapError_eq_ok_iff]

theorem forall₂_gives_iff {elements : List Value} {samples : List Sample} :
    List.Forall₂ Gives elements samples ↔ elements.mapM sampleOf = .ok samples := by
  rw [mapM_eq_ok_iff]
  exact ⟨fun given => given.imp fun _ _ => gives_iff.mp,
    fun given => given.imp fun _ _ => gives_iff.mpr⟩

theorem isTimely_iff {element : Value} :
    IsTimely element ↔ ∃ sample, sampleOf element = .ok sample := by
  simp only [IsTimely, ← gives_iff, Gives]
  constructor
  · rintro ⟨item, timestamp, isItem, isTime⟩
    rcases sample_iff.mpr ⟨timestamp, isTime⟩ with ⟨sample, isSample⟩
    exact ⟨sample, item, isItem, isSample⟩
  · rintro ⟨sample, item, isItem, isSample⟩
    rcases sample_iff.mp ⟨sample, isSample⟩ with ⟨timestamp, isTime⟩
    exact ⟨item, timestamp, isItem, isTime⟩

theorem timestampOfSeconds_eq_error {seconds : Binary64} {failure : Failure}
    (fails : timestampOfSeconds seconds = .error failure) :
    ∃ mismatch, failure = .unsuitable mismatch := by
  unfold timestampOfSeconds at fails
  split at fails
  · cases fails
    exact ⟨_, rfl⟩
  · split at fails
    · cases fails
      exact ⟨_, rfl⟩
    · cases fails

/-- A sample only fails for its time. -/
theorem sample_eq_error {item : Item} {failure : Failure} (fails : item.sample = .error failure) :
    timestampOfSeconds item.seconds = .error failure := by
  rw [Item.sample] at fails
  cases isTime : timestampOfSeconds item.seconds with
  | ok timestamp =>
      rw [isTime] at fails
      cases fails
  | error other =>
      rw [isTime] at fails
      cases fails
      rfl

/-! From the elements to the outcome. -/

theorem parse_of_lists {body : List UInt8} {elements : List Value} (lists : Lists body elements) :
    parse body = (elements.mapM Item.ofValue).mapError Failure.malformed >>= fun items =>
      (Verdict.series items).samples? := by
  rcases lists with ⟨envelope, data, isEnvelope, success, isData, isVector, isResult⟩
  have result : envelope.result = .ok (.array elements) :=
    Envelope.result_eq_ok_iff.mpr ⟨data, isData, isVector, isResult⟩
  rw [parse, decode, isEnvelope]
  change envelope.verdict >>= _ = _
  rw [Envelope.verdict, if_pos success, result]
  change ((elements.mapM Item.ofValue).mapError Failure.malformed >>= fun items =>
    pure (Verdict.series items)) >>= _ = _
  rw [bind_assoc]
  rfl

theorem samples?_series (items : List Item) :
    (Verdict.series items).samples? =
      (items.mapM Item.sample).map fun samples => if items = [] then none else some samples := by
  cases items with
  | nil => rfl
  | cons first items =>
      rw [Verdict.samples?]
      · rfl
      · exact List.cons_ne_nil first items

/-- Once all elements are decoded, it is a matter of each of them alone. -/
theorem parse_of_areItems {body : List UInt8} {elements : List Value}
    (lists : Lists body elements) (areItems : ∀ element ∈ elements, IsItem element) :
    parse body =
      (elements.mapM sampleOf).map fun samples => if elements = [] then none else some samples := by
  rcases mapM_all_iff.mpr fun element member => (areItems element member).imp fun _ isItem =>
    And.intro isItem trivial with ⟨items, decoded, _⟩
  have paired := mapM_eq_ok_iff.mp decoded
  have same : elements.mapM sampleOf = items.mapM Item.sample :=
    mapM_eq_of_forall₂ (paired.imp fun _ _ isItem => sampleOf_of_isItem isItem)
  have empty : items = [] ↔ elements = [] := by
    rw [← List.length_eq_zero_iff, ← paired.length_eq, List.length_eq_zero_iff]
  rw [parse_of_lists lists, decoded, same]
  change (Verdict.series items).samples? = _
  simp only [samples?_series, empty]

theorem areItems_of_parse {body : List UInt8} {elements : List Value}
    {samples : Option (List Sample)} (lists : Lists body elements)
    (parsed : parse body = .ok samples) : ∀ element ∈ elements, IsItem element := by
  rw [parse_of_lists lists, bind_eq_ok_iff] at parsed
  rcases parsed with ⟨items, decoded, _⟩
  have all := mapM_all_iff.mp ⟨items, mapError_eq_ok_iff.mp decoded, fun _ _ => trivial⟩
  exact fun element member => (all element member).imp fun _ isItem => isItem.1

theorem map_eq_ok_some_iff {Entry : Type} {entries : List Entry}
    {outcome : Except Failure (List Sample)}
    {samples : List Sample} :
    outcome.map (fun samples => if entries = [] then none else some samples) =
      .ok (some samples) ↔ entries ≠ [] ∧ outcome = .ok samples := by
  cases outcome with
  | error failure => simp [Except.map]
  | ok found => by_cases empty : entries = [] <;> simp [Except.map, empty]

theorem parse_eq_ok_some_iff {body : List UInt8} {elements : List Value} {samples : List Sample}
    (lists : Lists body elements) :
    parse body = .ok (some samples) ↔ elements ≠ [] ∧ List.Forall₂ Gives elements samples := by
  rw [forall₂_gives_iff]
  constructor
  · intro parsed
    rw [parse_of_areItems lists (areItems_of_parse lists parsed)] at parsed
    exact map_eq_ok_some_iff.mp parsed
  · intro given
    have areItems : ∀ element ∈ elements, IsItem element := by
      intro element member
      have all := mapM_all_iff.mp ⟨samples, given.2, fun _ _ => trivial⟩
      rcases all element member with ⟨sample, isSample, _⟩
      rcases gives_iff.mpr isSample with ⟨item, isItem, _⟩
      exact ⟨item, isItem⟩
    rw [parse_of_areItems lists areItems]
    exact map_eq_ok_some_iff.mpr given

theorem mapsAll_of_lists {body : List UInt8} {elements : List Value}
    (lists : Lists body elements) : MapsAll elements (parse body) := by
  constructor
  case undecoded =>
    intro someUndecoded
    rcases exists_first_failure someUndecoded with
      ⟨front, element, back, defect, split, areItems, isDefect, all⟩
    refine ⟨front, element, back, defect, split, areItems, isDefect, ?_⟩
    rw [parse_of_lists lists, all]
    rfl
  case untimely =>
    intro areItems someUntimely
    have someFails : ∃ element ∈ elements, ¬ ∃ sample, sampleOf element = .ok sample :=
      someUntimely.imp fun element untimely =>
        ⟨untimely.1, fun given => untimely.2 (isTimely_iff.mpr given)⟩
    rcases exists_first_failure someFails with
      ⟨front, element, back, failure, split, given, fails, all⟩
    have member : element ∈ elements := by
      rw [split]
      exact List.mem_append_right front List.mem_cons_self
    rcases areItems element member with ⟨item, isItem⟩
    rw [sampleOf_of_isItem isItem] at fails
    have isUntimely := sample_eq_error fails
    rcases timestampOfSeconds_eq_error isUntimely with ⟨mismatch, rfl⟩
    refine ⟨front, element, back, item, mismatch, split, ?_, isItem, isUntimely, ?_⟩
    · exact fun earlier isEarlier => isTimely_iff.mpr (given earlier isEarlier)
    · rw [parse_of_areItems lists areItems, all]
      rfl
  case accepted =>
    intro areTimely
    have areItems : ∀ element ∈ elements, IsItem element := by
      intro element member
      rcases areTimely element member with ⟨item, _, isItem, _⟩
      exact ⟨item, isItem⟩
    rcases mapM_all_iff.mpr fun element member =>
      (isTimely_iff.mp (areTimely element member)).imp fun _ isSample =>
        And.intro isSample trivial with ⟨samples, all, _⟩
    refine ⟨samples, forall₂_gives_iff.mpr all, ?_⟩
    rw [parse_of_areItems lists areItems, all]
    rfl
  case complete =>
    intro samples parsed
    exact ((parse_eq_ok_some_iff lists).mp parsed).2

/-- What is accepted of two lists is accepted of both together. -/
theorem parse_append {body front back : List UInt8} {frontElements backElements : List Value}
    {frontSamples backSamples : List Sample} (lists : Lists body (frontElements ++ backElements))
    (frontLists : Lists front frontElements) (backLists : Lists back backElements)
    (isFront : parse front = .ok (some frontSamples))
    (isBack : parse back = .ok (some backSamples)) :
    parse body = .ok (some (frontSamples ++ backSamples)) := by
  have ⟨nonempty, fromFront⟩ := (parse_eq_ok_some_iff frontLists).mp isFront
  have ⟨_, fromBack⟩ := (parse_eq_ok_some_iff backLists).mp isBack
  apply (parse_eq_ok_some_iff lists).mpr
  exact ⟨List.append_ne_nil_of_left_ne_nil nonempty _, List.rel_append fromFront fromBack⟩

theorem parse_ne_some_nil (body : List UInt8) : parse body ≠ .ok (some []) := by
  intro parsed
  rw [parse, bind_eq_ok_iff] at parsed
  rcases parsed with ⟨verdict, _, isNothing⟩
  cases verdict with
  | refused message => cases isNothing
  | series items =>
      rw [samples?_series, map_eq_ok_some_iff] at isNothing
      have paired := (mapM_eq_ok_iff.mp isNothing.2).length_eq
      exact isNothing.1 (List.length_eq_zero_iff.mp paired)

/-- The first element that is no item counts, or else the first one whose time is out of range.
If there is neither, all the samples come out, in the order of the elements. -/
theorem parse_allOrNothing {body : List UInt8} {elements : List Value}
    (lists : Lists body elements) :
    MapsAll elements (parse body) ∧
      (∀ {front back frontElements backElements frontSamples backSamples},
        Lists front frontElements → Lists back backElements →
          elements = frontElements ++ backElements → parse front = .ok (some frontSamples) →
            parse back = .ok (some backSamples) →
              parse body = .ok (some (frontSamples ++ backSamples))) ∧
      ∀ other, parse other ≠ .ok (some []) := by
  refine ⟨mapsAll_of_lists lists, ?_, parse_ne_some_nil⟩
  intro front back frontElements backElements frontSamples backSamples frontLists backLists joined
  subst joined
  exact parse_append lists frontLists backLists

/-! The time of the first element is out of range, and the second element is no item. -/

def untimelyElement : Value :=
  .object [("value", .array [.number (.whole 9223372036854775808), .text "1"])]

def mixedAnswer : Value :=
  .object [("status", .text "success"),
    ("data", .object [("result", .array [untimelyElement, .number (.whole 7)])])]

theorem mixedAnswer_lists :
    Lists (Utf8.encode mixedAnswer.write) [untimelyElement, .number (.whole 7)] := by
  have untimely : untimelyElement.IsWhole := by
    apply Value.IsWhole.object
    simp only [List.forall_mem_singleton]
    apply Value.IsWhole.array
    simp only [List.forall_mem_cons]
    exact ⟨.number (by decide) (by decide), .text "1", nofun⟩
  have elements : (Value.array [untimelyElement, .number (.whole 7)]).IsWhole := by
    apply Value.IsWhole.array
    simp only [List.forall_mem_cons]
    exact ⟨untimely, .number (by decide) (by decide), nofun⟩
  have isWhole : mixedAnswer.IsWhole := by
    apply Value.IsWhole.object
    simp only [List.forall_mem_cons]
    exact ⟨.text "success", .object (List.forall_mem_singleton.mpr elements), nofun⟩
  rw [Lists, Grammar.ofBytes_write isWhole]
  exact ⟨_, _, rfl, rfl, rfl, .inl rfl, rfl⟩

theorem parse_mixedAnswer :
    Lists (Utf8.encode mixedAnswer.write) [untimelyElement, .number (.whole 7)] ∧
      MapsAll [untimelyElement, .number (.whole 7)] (parse (Utf8.encode mixedAnswer.write)) :=
  ⟨mixedAnswer_lists, (parse_allOrNothing mixedAnswer_lists).1⟩

end MetricWatch.Response
