import Mathlib.Data.List.Perm.Basic
import MetricWatch.Proofs.Json.Faultless
import MetricWatch.Proofs.Lookup
import MetricWatch.Proofs.Outcome

namespace MetricWatch.Json

/-! The order of the members of an object does not matter to what a document says. -/

namespace Node

/-- Some object in a tree has its members in another order. -/
inductive Rearranges : Node → Node → Prop
  | members {members others : List (String × Node)} :
      NamesDiffer members → members.Perm others → Rearranges (.record members) (.record others)
  | inMember {front back : List (String × Node)} {name : String} {value other : Node} :
      Rearranges value other →
        Rearranges (.record (front ++ (name, value) :: back))
          (.record (front ++ (name, other) :: back))
  | inItem {front back : List Node} {item other : Node} :
      Rearranges item other →
        Rearranges (.array (front ++ item :: back) .closed)
          (.array (front ++ other :: back) .closed)

/-! The value of an array or an object is made of the values in it. -/

def memberValue (depth : Nat) (member : String × Node) : Except Fault (String × Value) :=
  (member.2.toValue depth).map fun value => (member.1, value)

theorem memberValues_keyed (depth : Nat) (members : List (String × Node)) :
    memberValues depth (keyed members) = members.mapM (memberValue depth) := by
  induction members with
  | nil => rfl
  | cons first members induction =>
      have values : memberValues depth (keyed (first :: members)) =
          (do
            let value ← first.2.toValue depth
            let pairs ← memberValues depth (keyed members)
            return (first.1, value) :: pairs) := rfl
      rw [values, induction, List.mapM_cons, memberValue]
      cases first.2.toValue depth <;> rfl

theorem itemValues_eq_mapM (depth : Nat) (items : List Node) :
    itemValues depth items = items.mapM (toValue depth) := by
  induction items with
  | nil => rfl
  | cons first items induction =>
      rw [itemValues, induction, List.mapM_cons]

theorem toValue_record {depth : Nat} {members : List (String × Node)} {value : Value} :
    (record members).toValue (depth + 1) = .ok value ↔
      ∃ pairs, members.mapM (memberValue depth) = .ok pairs ∧
        .object (Entries.ofList pairs) = value := by
  simp only [record, toValue, memberValues_keyed]
  cases members.mapM (memberValue depth) <;>
    simp [Ending.memberFault?, Fault.check, bind, Except.bind, pure, Except.pure]

theorem toValue_array {depth : Nat} {items : List Node} {value : Value} :
    (array items .closed).toValue (depth + 1) = .ok value ↔
      ∃ values, items.mapM (toValue depth) = .ok values ∧ .array values = value := by
  simp only [toValue, itemValues_eq_mapM]
  cases items.mapM (toValue depth) <;>
    simp [Ending.itemFault?, Fault.check, bind, Except.bind, pure, Except.pure]

theorem skimFault?_array {items : List Node} :
    (array items .closed).skimFault? = none ↔ ∀ item ∈ items, item.skimFault? = none := by
  have passed : ∀ items, (array items .closed).skimFault? = skimItems items := by
    intro items
    rw [skimFault?]
    cases skimItems items <;> rfl
  rw [passed]
  induction items with
  | nil => simp [skimItems]
  | cons first items induction =>
      simp only [skimItems, List.forall_mem_cons, ← induction]
      cases first.skimFault? <;> simp

theorem memberValue_eq_ok_iff {depth : Nat} {member : String × Node} {pair : String × Value} :
    memberValue depth member = .ok pair ↔
      pair.1 = member.1 ∧ member.2.toValue depth = .ok pair.2 := by
  rcases pair with ⟨name, value⟩
  rw [memberValue]
  cases member.2.toValue depth with
  | error fault => simp [Except.map]
  | ok content =>
      simp only [Except.map, Except.ok.injEq, Prod.mk.injEq]
      exact and_congr_left' eq_comm

theorem namesDiffer_of_mapM {depth : Nat} {members : List (String × Node)}
    {pairs : List (String × Value)} (differ : NamesDiffer members)
    (values : members.mapM (memberValue depth) = .ok pairs) : NamesDiffer pairs := by
  have sameNames : ∀ {members : List (String × Node)} {pairs : List (String × Value)},
      List.Forall₂ (fun member pair => memberValue depth member = .ok pair) members pairs →
        pairs.map (·.1) = members.map (·.1) := by
    intro members pairs paired
    induction paired with
    | nil => rfl
    | cons isValue _ induction =>
        rw [List.map_cons, List.map_cons, induction, (memberValue_eq_ok_iff.mp isValue).1]
  have names : (members.map (·.1)).Pairwise (· ≠ ·) := List.pairwise_map.mpr differ
  rw [← sameNames (mapM_eq_ok_iff.mp values)] at names
  exact List.pairwise_map.mp names

/-- A tree that is rearranged has the same value. -/
theorem Rearranges.toValue {before after : Node} (rearranges : before.Rearranges after)
    {depth : Nat} {value : Value} (isValue : before.toValue depth = .ok value) :
    after.toValue depth = .ok value := by
  induction rearranges generalizing depth value with
  | members differ arranged =>
      cases depth with
      | zero => cases isValue
      | succ depth =>
          rcases toValue_record.mp isValue with ⟨pairs, isPairs, rfl⟩
          rcases List.perm_comp_forall₂ arranged.symm (mapM_eq_ok_iff.mp isPairs) with
            ⟨others, areOthers, sameEntries⟩
          have same := Entries.ofList_of_perm sameEntries (namesDiffer_of_mapM differ isPairs)
          exact toValue_record.mpr ⟨others, mapM_eq_ok_iff.mpr areOthers, by rw [same]⟩
  | inMember _ induction =>
      cases depth with
      | zero => cases isValue
      | succ depth =>
          rcases toValue_record.mp isValue with ⟨pairs, isPairs, rfl⟩
          refine toValue_record.mpr ⟨pairs, mapM_replace isPairs fun pair isPair => ?_, rfl⟩
          have ⟨sameName, isMember⟩ := memberValue_eq_ok_iff.mp isPair
          exact memberValue_eq_ok_iff.mpr ⟨sameName, induction isMember⟩
  | inItem _ induction =>
      cases depth with
      | zero => cases isValue
      | succ depth =>
          rcases toValue_array.mp isValue with ⟨values, areValues, rfl⟩
          exact toValue_array.mpr
            ⟨values, mapM_replace areValues fun _ isItem => induction isItem, rfl⟩

theorem Rearranges.skimFault? {before after : Node} (rearranges : before.Rearranges after)
    (passed : before.skimFault? = none) : after.skimFault? = none := by
  induction rearranges with
  | members _ arranged =>
      rw [skimFault?_record] at passed ⊢
      exact fun member isMember => passed member (arranged.mem_iff.mpr isMember)
  | inMember _ induction =>
      rw [skimFault?_record] at passed ⊢
      simp only [List.forall_mem_append, List.forall_mem_cons] at passed ⊢
      exact ⟨passed.1, induction passed.2.1, passed.2.2⟩
  | inItem _ induction =>
      rw [skimFault?_array] at passed ⊢
      simp only [List.forall_mem_append, List.forall_mem_cons] at passed ⊢
      exact ⟨passed.1, induction passed.2.1, passed.2.2⟩

end Node

end MetricWatch.Json
