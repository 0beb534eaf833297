import MetricWatch.Dictionary

namespace MetricWatch

/-! Names that occur more than once in a list of named contents. -/

/-- What a name stands for last. -/
def lastNamed? {Content : Type} (name : String) (pairs : List (String × Content)) :
    Option Content :=
  Entries.find? pairs.reverse name

section

variable {Content Image : Type}

theorem lastNamed?_cons (name : String) (first : String × Content)
    (pairs : List (String × Content)) :
    lastNamed? name (first :: pairs) =
      (lastNamed? name pairs).or (if first.1 = name then some first.2 else none) := by
  simp only [lastNamed?, Entries.find?, List.reverse_cons, List.find?_append, List.find?_singleton,
    beq_iff_eq, Option.map_or]
  split <;> rfl

theorem lastNamed?_eq_getLast? (name : String) (pairs : List (String × Content)) :
    lastNamed? name pairs = ((pairs.filter fun pair => pair.1 == name).getLast?).map (·.2) := by
  rw [List.getLast?_filter]
  rfl

theorem mem_of_lastNamed? {name : String} {pairs : List (String × Content)} {content : Content}
    (found : lastNamed? name pairs = some content) : (name, content) ∈ pairs := by
  simp only [lastNamed?, Entries.find?, Option.map_eq_some_iff] at found
  rcases found with ⟨⟨key, _⟩, isFound, rfl⟩
  have member := List.mem_of_find?_eq_some isFound
  have same := List.find?_some isFound
  rw [List.mem_reverse] at member
  rwa [← eq_of_beq same]

theorem lastNamed?_map (name : String) (pairs : List (String × Content))
    (image : Content → Image) :
    lastNamed? name (pairs.map fun pair => (pair.1, image pair.2)) =
      (lastNamed? name pairs).map image := by
  induction pairs with
  | nil => rfl
  | cons first pairs induction =>
      rw [List.map_cons, lastNamed?_cons, lastNamed?_cons, induction, Option.map_or]
      split <;> rfl

def NamesDiffer (pairs : List (String × Content)) : Prop :=
  pairs.Pairwise fun left right => left.1 ≠ right.1

theorem NamesDiffer.of_perm {pairs others : List (String × Content)} (differ : NamesDiffer others)
    (arranged : pairs.Perm others) : NamesDiffer pairs :=
  (arranged.pairwise_iff fun unequal => unequal.symm).mpr differ

theorem NamesDiffer.map {pairs : List (String × Content)} (differ : NamesDiffer pairs)
    (image : Content → Image) : NamesDiffer (pairs.map fun pair => (pair.1, image pair.2)) :=
  List.pairwise_map.mpr differ

theorem NamesDiffer.pair {first second : String} (different : first ≠ second)
    (left right : Content) : NamesDiffer [(first, left), (second, right)] :=
  List.pairwise_pair.mpr different

theorem NamesDiffer.eq_of_mem {pairs : List (String × Content)} (differ : NamesDiffer pairs)
    {left right : String × Content} (isLeft : left ∈ pairs) (isRight : right ∈ pairs)
    (sameName : left.1 = right.1) : left = right := by
  induction pairs with
  | nil => cases isLeft
  | cons first pairs induction =>
      have ⟨unlikeFirst, othersDiffer⟩ := List.pairwise_cons.mp differ
      rcases List.mem_cons.mp isLeft with rfl | leftLater
      · rcases List.mem_cons.mp isRight with rfl | rightLater
        · rfl
        · exact absurd sameName (unlikeFirst right rightLater)
      · rcases List.mem_cons.mp isRight with rfl | rightLater
        · exact absurd sameName.symm (unlikeFirst left leftLater)
        · exact induction othersDiffer leftLater rightLater

/-- A name stands for one thing at most. -/
theorem NamesDiffer.length_filter_le {pairs : List (String × Content)} (differ : NamesDiffer pairs)
    (name : String) : (pairs.filter fun pair => pair.1 == name).length ≤ 1 := by
  have isNamed : ∀ pair ∈ pairs.filter (fun pair => pair.1 == name), pair.1 = name :=
    fun pair member => eq_of_beq (List.mem_filter.mp member).2
  have differ : NamesDiffer (pairs.filter fun pair => pair.1 == name) :=
    List.Pairwise.sublist List.filter_sublist differ
  generalize pairs.filter (fun pair => pair.1 == name) = same at isNamed differ ⊢
  rcases same with _ | ⟨first, _ | ⟨second, others⟩⟩
  · exact Nat.zero_le 1
  · exact Nat.le_refl 1
  · have firstNamed := isNamed first List.mem_cons_self
    have secondNamed := isNamed second (List.mem_cons_of_mem first List.mem_cons_self)
    have unequal := List.rel_of_pairwise_cons differ List.mem_cons_self
    exact absurd (firstNamed.trans secondNamed.symm) unequal

namespace Entries

theorem find?_insert (key other : String) (content : Content) (entries : Entries Content) :
    (insert key content entries).find? other =
      if key = other then some content else entries.find? other := by
  induction entries with
  | nil => by_cases same : key = other <;> simp [insert, find?, same]
  | cons first entries induction =>
      simp only [insert]
      split
      · by_cases same : key = other <;> simp [find?, same]
      · split
        · rename_i replaced
          by_cases same : key = other
          · simp [find?, same]
          · simp [find?, same, ← replaced]
        · rename_i _ different
          simp only [find?, List.find?_cons] at induction ⊢
          by_cases isFirst : first.1 = other
          · have notSame : key ≠ other := fun same => different (same.trans isFirst.symm)
            simp [isFirst, notSame]
          · have notFirst : (first.1 == other) = false := beq_eq_false_iff_ne.mpr isFirst
            simp only [notFirst]
            exact induction

/-- Of several entries with one name the last one is kept. -/
theorem find?_ofList (pairs : List (String × Content)) (key : String) :
    (ofList pairs).find? key = lastNamed? key pairs := by
  have kept : ∀ (pairs : List (String × Content)) (entries : Entries Content),
      (pairs.foldl (fun entries pair => insert pair.1 pair.2 entries) entries).find? key =
        (lastNamed? key pairs).or (entries.find? key) := by
    intro pairs
    induction pairs with
    | nil => exact fun _ => rfl
    | cons first pairs induction =>
        intro entries
        rw [List.foldl_cons, induction, find?_insert, lastNamed?_cons, Option.or_assoc]
        split <;> rfl
  have whole := kept pairs []
  rw [show find? ([] : Entries Content) key = none from rfl, Option.or_none] at whole
  exact whole

/-! Entries with different names are only put in order. -/

theorem insert_perm {key : String} {content : Content} {entries : Entries Content}
    (isNew : ∀ entry ∈ entries, key ≠ entry.1) :
    (insert key content entries).Perm ((key, content) :: entries) := by
  induction entries with
  | nil => exact List.Perm.refl _
  | cons first entries induction =>
      have ⟨notFirst, notLater⟩ := List.forall_mem_cons.mp isNew
      simp only [insert, if_neg notFirst]
      split
      · exact List.Perm.refl _
      · exact ((induction notLater).cons first).trans (List.Perm.swap _ _ _)

theorem ofList_perm {pairs : List (String × Content)} (differ : NamesDiffer pairs) :
    (ofList pairs).Perm pairs := by
  have kept : ∀ (pairs : List (String × Content)) (entries : Entries Content),
      NamesDiffer (entries ++ pairs) →
        (pairs.foldl (fun entries pair => insert pair.1 pair.2 entries) entries).Perm
          (entries ++ pairs) := by
    intro pairs
    induction pairs with
    | nil => exact fun entries _ => List.Perm.of_eq (List.append_nil entries).symm
    | cons first pairs induction =>
        intro entries differ
        have isNew : ∀ entry ∈ entries, first.1 ≠ entry.1 := fun entry member =>
          ((List.pairwise_append.mp differ).2.2 entry member first List.mem_cons_self).symm
        have moved : (insert first.1 first.2 entries ++ pairs).Perm (entries ++ first :: pairs) :=
          ((insert_perm isNew).append_right pairs).trans List.perm_middle.symm
        exact (induction _ (differ.of_perm moved)).trans moved
  exact kept pairs [] differ

theorem Ascending.namesDiffer {entries : Entries Content} (ascending : entries.Ascending) :
    NamesDiffer entries := by
  refine ascending.imp ?_
  intro left right below same
  exact String.lt_irrefl right.1 (same ▸ below)

/-- There is only one order of the names. -/
theorem Ascending.eq_of_perm {entries others : Entries Content} (ascending : entries.Ascending)
    (othersAscending : others.Ascending) (arranged : entries.Perm others) : entries = others := by
  refine arranged.eq_of_pairwise ?_ ascending othersAscending
  intro left right _ _ below above
  exact absurd above (String.lt_asymm below)

theorem ofList_of_ascending {entries : Entries Content} (ascending : entries.Ascending) :
    ofList entries = entries :=
  (ofList_ascending entries).eq_of_perm ascending (ofList_perm ascending.namesDiffer)

theorem ofList_of_perm {pairs others : List (String × Content)} (arranged : pairs.Perm others)
    (differ : NamesDiffer others) : ofList pairs = ofList others := by
  apply (ofList_ascending pairs).eq_of_perm (ofList_ascending others)
  exact ((ofList_perm (differ.of_perm arranged)).trans arranged).trans (ofList_perm differ).symm

end Entries

theorem lastNamed?_of_perm {pairs others : List (String × Content)} (arranged : pairs.Perm others)
    (differ : NamesDiffer others) (name : String) :
    lastNamed? name pairs = lastNamed? name others := by
  rw [← Entries.find?_ofList, Entries.ofList_of_perm arranged differ, Entries.find?_ofList]

end

end MetricWatch
