import MetricWatch.Proofs.Json.Rearranging
import MetricWatch.Proofs.Response.Fields

namespace MetricWatch.Response

open Json

/-! The ways to write the same fields. They may stand in an object in any order, with others
beside them, or in an array in their own order. -/

structure Layout where
  names : List String
  /-- The fields that may be absent, and what stands in an array for one that is. -/
  optional : List String
  absent : Node
  /-- How the value of a field may be rewritten. -/
  Within : String → Node → Node → Prop
  /-- What other fields may hold. -/
  Admits : Node → Prop

namespace Layout

/-- The array has the fields of the object, and the object has no others. -/
structure Lists (layout : Layout) (members : List (String × Node)) (items : List Node) :
    Prop where
  namesDiffer : NamesDiffer members
  known : ∀ member ∈ members, member.1 ∈ layout.names
  inOrder : List.Forall₂ (fun name item => (name, item) ∈ members ∨
    name ∈ layout.optional ∧ (∀ member ∈ members, member.1 ≠ name) ∧ item = layout.absent)
    layout.names items

/-- One change in how something is written. -/
inductive Rewrites (layout : Layout) : Node → Node → Prop
  | rearranged {before after : Node} :
      before.Rearranges after → layout.Rewrites before after
  | inMember {front back : List (String × Node)} {name : String} {before after : Node} :
      name ∈ layout.names → layout.Within name before after →
        layout.Rewrites (.record (front ++ (name, before) :: back))
          (.record (front ++ (name, after) :: back))
  | inItem {front back : List Node} {name : String} {before after : Node} :
      layout.names[front.length]? = some name → layout.Within name before after →
        layout.Rewrites (.array (front ++ before :: back) .closed)
          (.array (front ++ after :: back) .closed)
  | added {front back : List (String × Node)} {name : String} {value : Node} :
      name ∉ layout.names → layout.Admits value →
        layout.Rewrites (.record (front ++ back)) (.record (front ++ (name, value) :: back))
  | removed {front back : List (String × Node)} {name : String} {value : Node} :
      name ∉ layout.names →
        layout.Rewrites (.record (front ++ (name, value) :: back)) (.record (front ++ back))
  | listed {members : List (String × Node)} {items : List Node} :
      layout.Lists members items → layout.Rewrites (.record members) (.array items .closed)
  | unlisted {members : List (String × Node)} {items : List Node} :
      layout.Lists members items → layout.Rewrites (.array items .closed) (.record members)

/-- The nodes under each name say what they are to say, and all others can be passed. -/
def Fits (layout : Layout) (Asserts : String → List Node → Prop) (Passes : Node → Prop)
    (fields : List (String × Node)) : Prop :=
  (∀ name ∈ layout.names, Asserts name (named name fields)) ∧
    ∀ field ∈ fields, field.1 ∉ layout.names → Passes field.2

/-- What a node tells depends on its fields alone, and not on how they are written. -/
structure Respects (layout : Layout) (Tells : Node → Prop) (Asserts : String → List Node → Prop)
    (Passes : Node → Prop) : Prop where
  nodup : layout.names.Nodup
  record_iff : ∀ members, Tells (.record members) ↔ layout.Fits Asserts Passes members
  array_iff : ∀ items, Tells (.array items .closed) ↔
    items.length ≤ layout.names.length ∧ layout.Fits Asserts Passes (layout.names.zip items)
  rearranged : ∀ {name front back before after}, name ∈ layout.names → before.Rearranges after →
    Asserts name (front ++ before :: back) → Asserts name (front ++ after :: back)
  within : ∀ {name front back before after}, layout.Within name before after →
    Asserts name (front ++ before :: back) → Asserts name (front ++ after :: back)
  absent : ∀ name ∈ layout.optional, (Asserts name [layout.absent] ↔ Asserts name [])
  passes : ∀ {before after}, before.Rearranges after → Passes before → Passes after
  admits : ∀ {value}, layout.Admits value → Passes value

end Layout

section Names

variable {name other : String} {fields others : List (String × Node)}

theorem named_append (front back : List (String × Node)) :
    named name (front ++ back) = named name front ++ named name back := by
  simp [named]

theorem named_of_perm (differ : NamesDiffer fields) (arranged : fields.Perm others) :
    named name fields = named name others := by
  rcases named_of_namesDiffer differ name with nothing | ⟨node, member, single⟩
  · have empty : named name others = [] := by
      rw [List.eq_nil_iff_forall_not_mem]
      intro node isNamed
      have member := mem_named.mpr (arranged.mem_iff.mpr (mem_named.mp isNamed))
      rw [nothing] at member
      cases member
    rw [nothing, empty]
  · rw [single, named_of_mem (differ.of_perm arranged.symm) (arranged.mem_iff.mp member)]

/-- An item of an array stands under the name in its place. -/
theorem zip_append_cons {names : List String} {front back : List Node} {item : Node}
    (isName : names[front.length]? = some name) :
    names.zip (front ++ item :: back) =
      (names.take front.length).zip front ++
        (name, item) :: (names.drop (front.length + 1)).zip back := by
  induction front generalizing names with
  | nil =>
      cases names with
      | nil => cases isName
      | cons first names =>
          cases isName
          rfl
  | cons first front induction =>
      cases names with
      | nil => cases isName
      | cons head names => exact congrArg ((head, first) :: ·) (induction isName)

theorem named_zip {names : List String} {items : List Node} {Stands : String → Node → Prop}
    (nodup : names.Nodup) (inOrder : List.Forall₂ Stands names items) (isName : name ∈ names) :
    ∃ item, Stands name item ∧ named name (names.zip items) = [item] := by
  induction inOrder with
  | nil => cases isName
  | @cons head item names items stands inOrder induction =>
      have ⟨notLater, nodup⟩ := List.nodup_cons.mp nodup
      rw [List.zip_cons_cons]
      by_cases isHead : head = name
      · subst isHead
        have nothing : named head (names.zip items) = [] := by
          rw [List.eq_nil_iff_forall_not_mem]
          exact fun node isNamed => notLater (List.of_mem_zip (mem_named.mp isNamed)).1
        exact ⟨item, stands, by rw [named_cons_self, nothing]⟩
      · rw [named_cons_of_ne isHead]
        exact induction nodup ((List.mem_cons.mp isName).resolve_left (Ne.symm isHead))

end Names

namespace Layout

variable {layout : Layout} {Tells : Node → Prop} {Asserts : String → List Node → Prop}
  {Passes : Node → Prop}

/-! What each change leaves of the fields. -/

theorem Fits.replace {front back : List (String × Node)} {name : String} {before after : Node}
    (fits : layout.Fits Asserts Passes (front ++ (name, before) :: back))
    (keeps : name ∈ layout.names → ∀ {front back},
      Asserts name (front ++ before :: back) → Asserts name (front ++ after :: back))
    (passes : name ∉ layout.names → Passes before → Passes after) :
    layout.Fits Asserts Passes (front ++ (name, after) :: back) := by
  constructor
  · intro other isName
    have said := fits.1 other isName
    rw [named_append] at said ⊢
    by_cases same : name = other
    · subst same
      rw [named_cons_self] at said ⊢
      exact keeps isName said
    · rwa [named_cons_of_ne same] at said ⊢
  · have passed := fits.2
    simp only [List.forall_mem_append, List.forall_mem_cons] at passed ⊢
    exact ⟨passed.1, fun notName => passes notName (passed.2.1 notName), passed.2.2⟩

theorem Fits.of_perm {members others : List (String × Node)}
    (fits : layout.Fits Asserts Passes members) (differ : NamesDiffer members)
    (arranged : members.Perm others) : layout.Fits Asserts Passes others := by
  constructor
  · intro name isName
    rw [← named_of_perm differ arranged]
    exact fits.1 name isName
  · exact fun field member => fits.2 field (arranged.mem_iff.mpr member)

theorem fits_insert_iff {front back : List (String × Node)} {name : String} {value : Node}
    (notName : name ∉ layout.names) :
    layout.Fits Asserts Passes (front ++ (name, value) :: back) ↔
      Passes value ∧ layout.Fits Asserts Passes (front ++ back) := by
  have same : ∀ other ∈ layout.names,
      named other (front ++ (name, value) :: back) = named other (front ++ back) := by
    intro other isName
    have different : name ≠ other := fun same => notName (same ▸ isName)
    rw [named_append, named_append, named_cons_of_ne different]
  simp only [Fits, List.forall_mem_append, List.forall_mem_cons]
  constructor
  · rintro ⟨asserted, passedFront, passed, passedBack⟩
    refine ⟨passed notName, fun other isName => ?_, passedFront, passedBack⟩
    rw [← same other isName]
    exact asserted other isName
  · rintro ⟨passed, asserted, passedFront, passedBack⟩
    refine ⟨fun other isName => ?_, passedFront, fun _ => passed, passedBack⟩
    rw [same other isName]
    exact asserted other isName

theorem Respects.fits_iff_of_lists (respects : layout.Respects Tells Asserts Passes)
    {members : List (String × Node)} {items : List Node} (lists : layout.Lists members items) :
    layout.Fits Asserts Passes members ↔ layout.Fits Asserts Passes (layout.names.zip items) := by
  have same : ∀ name ∈ layout.names,
      (Asserts name (named name members) ↔ Asserts name (named name (layout.names.zip items))) := by
    intro name isName
    rcases named_zip respects.nodup lists.inOrder isName with ⟨item, stands, isNamed⟩
    rw [isNamed]
    rcases stands with member | ⟨isOptional, isAbsent, rfl⟩
    · rw [named_of_mem lists.namesDiffer member]
    · have nothing : named name members = [] := by
        rw [List.eq_nil_iff_forall_not_mem]
        exact fun node isNamed => isAbsent _ (mem_named.mp isNamed) rfl
      rw [nothing]
      exact (respects.absent name isOptional).symm
  have noOthers : ∀ field ∈ layout.names.zip items, field.1 ∈ layout.names :=
    fun field member => (List.of_mem_zip member).1
  constructor
  · intro fits
    exact ⟨fun name isName => (same name isName).mp (fits.1 name isName),
      fun field member notName => absurd (noOthers field member) notName⟩
  · intro fits
    exact ⟨fun name isName => (same name isName).mpr (fits.1 name isName),
      fun field member notName => absurd (lists.known field member) notName⟩

theorem Respects.tells_of_array (respects : layout.Respects Tells Asserts Passes)
    {front back : List Node} {before after : Node}
    (keeps : ∀ {name}, layout.names[front.length]? = some name → ∀ {front back},
      Asserts name (front ++ before :: back) → Asserts name (front ++ after :: back))
    (tells : Tells (.array (front ++ before :: back) .closed)) :
    Tells (.array (front ++ after :: back) .closed) := by
  rw [respects.array_iff] at tells ⊢
  rcases tells with ⟨within, fits⟩
  rw [List.length_append, List.length_cons] at within ⊢
  have isName : layout.names[front.length]? = some layout.names[front.length] :=
    List.getElem?_eq_getElem (by omega)
  rw [zip_append_cons isName] at fits ⊢
  exact ⟨within, fits.replace (fun _ => keeps isName) fun notName =>
    absurd (List.getElem_mem _) notName⟩

/-- What is told in one way of writing is told in another. -/
theorem Respects.tells_of_rewrites (respects : layout.Respects Tells Asserts Passes)
    {before after : Node} (rewrites : layout.Rewrites before after) (tells : Tells before) :
    Tells after := by
  cases rewrites with
  | rearranged rearranges =>
      cases rearranges with
      | members differ arranged =>
          rw [respects.record_iff] at tells ⊢
          exact tells.of_perm differ arranged
      | inMember rearranges =>
          rw [respects.record_iff] at tells ⊢
          exact tells.replace (fun isName => respects.rearranged isName rearranges)
            fun _ => respects.passes rearranges
      | inItem rearranges =>
          refine respects.tells_of_array (fun isName => ?_) tells
          exact respects.rearranged (List.mem_of_getElem? isName) rearranges
  | inMember isName within =>
      rw [respects.record_iff] at tells ⊢
      exact tells.replace (fun _ => respects.within within) fun notName => absurd isName notName
  | inItem isName within =>
      refine respects.tells_of_array (fun isOther => ?_) tells
      rw [isName, Option.some.injEq] at isOther
      rw [← isOther]
      exact respects.within within
  | added notName admitted =>
      rw [respects.record_iff] at tells ⊢
      exact (fits_insert_iff notName).mpr ⟨respects.admits admitted, tells⟩
  | removed notName =>
      rw [respects.record_iff] at tells ⊢
      exact ((fits_insert_iff notName).mp tells).2
  | listed lists =>
      rw [respects.record_iff, respects.fits_iff_of_lists lists] at tells
      exact (respects.array_iff _).mpr ⟨Nat.le_of_eq lists.inOrder.length_eq.symm, tells⟩
  | unlisted lists =>
      rw [respects.record_iff, respects.fits_iff_of_lists lists]
      exact ((respects.array_iff _).mp tells).2

end Layout

end MetricWatch.Response
