import MetricWatch.Proofs.Response.NumberLabel

namespace MetricWatch.Response

/-! What the text of a label says. A number can be read back from it, and the items of nested
arrays stand in it one after the other. -/

/-! Numbers. -/

theorem sampleValue_numberText {spelling : Json.Spelling} {number : Json.Number}
    (isSpelled : spelling.number = .ok number) :
    sampleValue (.text (numberText number)) = number.toBinary64 := by
  have ⟨magnitude, stands⟩ := exists_stands (Json.Spelling.number_eq_ok_iff.mp isSpelled)
  rw [sampleValue, stands.readNumericPrefix_eq, stands.isBinary64]

/-- A sample value is read back from what is printed of it, and a number in a document from the
text that it has as a label. -/
theorem sampleValue_written :
    (∀ value : Binary64, value.isFinite = true →
      sampleValue (.text (sampleValueStyle.write value)) = value) ∧
    ∀ {spelling : Json.Spelling} {number : Json.Number}, spelling.number = .ok number →
      sampleValue (.text (labelText (.number number))) = sampleValue (.number number) := by
  constructor
  · intro value finite
    rw [sampleValue, DecimalStyle.write, String.toList_ofList]
    exact sampleValueStyle.readNumericPrefix_characters finite
  · intro spelling number isSpelled
    rw [labelText, sampleValue_numberText isSpelled, sampleValue]

/-- The negative number nearest to zero has 323 zeros behind the point, and a zero keeps its
sign. -/
theorem sampleValue_written_smallest :
    (Binary64.ofBits 0x8000000000000001).isFinite = true ∧
      sampleValue (.text (sampleValueStyle.write (.ofBits 0x8000000000000001))) =
        .ofBits 0x8000000000000001 ∧
      minusZero.number = .ok (.real (.number true .zero)) ∧
      sampleValue (.text (labelText (.number (.real (.number true .zero))))) =
        .number true .zero := by
  have finite : (Binary64.ofBits 0x8000000000000001).isFinite = true := by decide
  have isSpelled : minusZero.number = .ok (.real (.number true .zero)) := by decide +kernel
  exact ⟨finite, sampleValue_written.1 _ finite, isSpelled, sampleValue_written.2 isSpelled⟩

/-! Nested arrays. -/

/-- A place in nested arrays that is no array with items. -/
inductive Leaf where
  | nothing
  | truth (value : Bool)
  | number (number : Json.Number)
  | text (content : String)
  | object

def Leaf.shown : Leaf → String
  | .nothing => ""
  | .truth true => "true"
  | .truth false => "false"
  | .number value => numberText value
  | .text content => content
  | .object => "[object Object]"

mutual
/-- The leaves of a value in order. `null` and an empty array are one leaf, with nothing to show. -/
def leaves : Json.Value → List Leaf
  | .null => [.nothing]
  | .bool value => [.truth value]
  | .number number => [.number number]
  | .text content => [.text content]
  | .array [] => [.nothing]
  | .array (item :: items) => leaves item ++ itemLeaves items
  | .object _ => [.object]

def itemLeaves : List Json.Value → List Leaf
  | [] => []
  | item :: items => leaves item ++ itemLeaves items
end

/-- The texts of all leaves, joined by commas; but `null` alone shows its name. -/
def flatText : Json.Value → String
  | .null => "null"
  | value => ",".intercalate ((leaves value).map Leaf.shown)

/-- Somewhere in a value the items of an inner array take its place. -/
inductive Splices : Json.Value → Json.Value → Prop
  | here {front inner back : List Json.Value} : inner ≠ [] →
      Splices (.array (front ++ .array inner :: back)) (.array (front ++ (inner ++ back)))
  | item {front back : List Json.Value} {item other : Json.Value} : Splices item other →
      Splices (.array (front ++ item :: back)) (.array (front ++ other :: back))
  | member {front back : List (String × Json.Value)} {key : String} {value other : Json.Value} :
      Splices value other →
        Splices (.object (front ++ (key, value) :: back)) (.object (front ++ (key, other) :: back))

theorem leaves_array {items : List Json.Value} (notEmpty : items ≠ []) :
    leaves (.array items) = itemLeaves items := by
  cases items with
  | nil => exact absurd rfl notEmpty
  | cons item items => rw [leaves, itemLeaves]

theorem itemLeaves_append (front back : List Json.Value) :
    itemLeaves (front ++ back) = itemLeaves front ++ itemLeaves back := by
  induction front with
  | nil => rfl
  | cons item front induction =>
      rw [List.cons_append, itemLeaves, itemLeaves, induction, List.append_assoc]

theorem leaves_ne_nil : ∀ value : Json.Value, leaves value ≠ []
  | .null | .bool _ | .number _ | .text _ | .array [] | .object _ => List.cons_ne_nil _ _
  | .array (item :: _) => List.append_ne_nil_of_left_ne_nil (leaves_ne_nil item) _

theorem itemLeaves_ne_nil {items : List Json.Value} (notEmpty : items ≠ []) :
    itemLeaves items ≠ [] := by
  rw [← leaves_array notEmpty]
  exact leaves_ne_nil _

/-- The text of a value among the items of an array. -/
def itemText : Json.Value → String
  | .null => ""
  | value => labelText value

theorem itemTexts_cons (item : Json.Value) (items : List Json.Value) :
    itemTexts (item :: items) = itemText item :: itemTexts items := by
  cases item <;> rfl

/-! Texts that are joined already are joined once more. -/

mutual
theorem itemText_eq : ∀ value : Json.Value,
    itemText value = ",".intercalate ((leaves value).map Leaf.shown)
  | .null | .bool true | .bool false | .number _ | .text _ | .object _ =>
      String.intercalate_singleton.symm
  | .array [] => rfl
  | .array (item :: items) => by
      rw [leaves_array (List.cons_ne_nil item items), ← intercalate_itemTexts]
      rfl

theorem intercalate_itemTexts : ∀ items : List Json.Value,
    ",".intercalate (itemTexts items) = ",".intercalate ((itemLeaves items).map Leaf.shown)
  | [] => rfl
  | [item] => by
      rw [itemTexts_cons, itemText_eq item, itemLeaves, itemLeaves, List.append_nil]
      exact String.intercalate_singleton
  | item :: next :: items => by
      have further : itemTexts (next :: items) ≠ [] := by
        rw [itemTexts_cons]
        exact List.cons_ne_nil _ _
      have leavesOfItem : (leaves item).map Leaf.shown ≠ [] :=
        mt List.map_eq_nil_iff.mp (leaves_ne_nil item)
      have furtherLeaves : (itemLeaves (next :: items)).map Leaf.shown ≠ [] :=
        mt List.map_eq_nil_iff.mp (itemLeaves_ne_nil (List.cons_ne_nil next items))
      have parts : itemLeaves (item :: next :: items) =
          leaves item ++ itemLeaves (next :: items) := rfl
      rw [itemTexts_cons, String.intercalate_cons_of_ne_nil further, itemText_eq item,
        intercalate_itemTexts (next :: items), parts, List.map_append,
        String.intercalate_append_of_ne_nil leavesOfItem furtherLeaves]
end

theorem labelText_eq_flatText (value : Json.Value) : labelText value = flatText value := by
  cases value with
  | null => rfl
  | bool truth => exact itemText_eq (.bool truth)
  | number number => exact itemText_eq (.number number)
  | text content => exact itemText_eq (.text content)
  | array items => exact itemText_eq (.array items)
  | object members => exact itemText_eq (.object members)

theorem Splices.leaves_eq {value other : Json.Value} (splices : Splices value other) :
    leaves other = leaves value := by
  induction splices with
  | @here front inner back notEmpty =>
      have spliced : front ++ (inner ++ back) ≠ [] := by simp [notEmpty]
      rw [leaves_array spliced, leaves_array (by simp), itemLeaves_append, itemLeaves_append,
        itemLeaves_append, itemLeaves, leaves_array notEmpty]
  | item _ induction =>
      rw [leaves_array (by simp), leaves_array (by simp), itemLeaves_append, itemLeaves_append,
        itemLeaves, itemLeaves, induction]
  -- An object is one leaf, whatever it holds.
  | member => rfl

theorem Splices.flatText_eq {value other : Json.Value} (splices : Splices value other) :
    flatText other = flatText value := by
  have same := congrArg (fun shown => ",".intercalate (shown.map Leaf.shown)) splices.leaves_eq
  cases splices <;> exact same

/-- A label shows the leaves of its value, and does not tell how they were nested. -/
theorem labelText_flattens (value : Json.Value) :
    labelText value = flatText value ∧
      ∀ other, Splices value other → labelText other = labelText value := by
  refine ⟨labelText_eq_flatText value, fun other splices => ?_⟩
  rw [labelText_eq_flatText, labelText_eq_flatText, splices.flatText_eq]

/-! A list with a gap and a list in it. -/

def nestedList : Json.Value :=
  .array [.number (.whole 1), .text "a", .null, .array [.number (.whole 2), .array []], .array []]

def flatList : Json.Value :=
  .array [.number (.whole 1), .text "a", .null, .number (.whole 2), .array [], .array []]

theorem labelText_nestedList :
    Splices nestedList flatList ∧ labelText nestedList = "1,a,,2,," ∧
      labelText flatList = labelText nestedList := by
  have splices : Splices nestedList flatList :=
    @Splices.here [.number (.whole 1), .text "a", .null] _ [.array []] (List.cons_ne_nil _ _)
  have ⟨isFlat, alike⟩ := labelText_flattens nestedList
  refine ⟨splices, ?_, alike flatList splices⟩
  rw [isFlat]
  decide +kernel

end MetricWatch.Response
