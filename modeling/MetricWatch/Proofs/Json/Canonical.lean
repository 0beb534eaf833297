import Mathlib.Logic.Relation
import MetricWatch.Proofs.Json.Rearranging
import MetricWatch.Proofs.Json.Writing

namespace MetricWatch.Json

/-! Every way to write a value leads to one text of it, in which nothing of the value is lost. -/

/-! A tree can be rearranged in several places at once. -/

namespace Node

abbrev RearrangesTo : Node → Node → Prop := Relation.ReflTransGen Rearranges

theorem RearrangesTo.toValue {before after : Node} (rearranges : before.RearrangesTo after)
    {depth : Nat} {value : Value} (isValue : before.toValue depth = .ok value) :
    after.toValue depth = .ok value := by
  induction rearranges with
  | refl => exact isValue
  | tail _ last induction => exact last.toValue induction

theorem rearrangesTo_items {items others : List Node}
    (paired : List.Forall₂ RearrangesTo items others) :
    ∀ front : List Node,
      (array (front ++ items) .closed).RearrangesTo (array (front ++ others) .closed) := by
  induction paired with
  | nil => exact fun _ => .refl
  | @cons item other items others rearranges _ induction =>
      intro front
      have first : (array (front ++ item :: items) .closed).RearrangesTo
          (array (front ++ other :: items) .closed) :=
        rearranges.lift (fun node => array (front ++ node :: items) .closed) fun _ _ => .inItem
      have rest := induction (front ++ [other])
      rw [List.append_assoc, List.append_assoc] at rest
      exact first.trans rest

theorem rearrangesTo_members {members others : List (String × Node)}
    (paired : List.Forall₂ (fun member other => member.1 = other.1 ∧
      member.2.RearrangesTo other.2) members others) :
    ∀ front : List (String × Node),
      (record (front ++ members)).RearrangesTo (record (front ++ others)) := by
  induction paired with
  | nil => exact fun _ => .refl
  | @cons member other members others same _ induction =>
      intro front
      obtain ⟨name, value⟩ := member
      obtain ⟨otherName, otherValue⟩ := other
      obtain ⟨rfl, rearranges⟩ := same
      have first : (record (front ++ (name, value) :: members)).RearrangesTo
          (record (front ++ (name, otherValue) :: members)) :=
        rearranges.lift (fun node => record (front ++ (name, node) :: members))
          fun _ _ => .inMember
      have rest := induction (front ++ [(name, otherValue)])
      rw [List.append_assoc, List.append_assoc] at rest
      exact first.trans rest

end Node

namespace SyntaxTree

/-- No name is repeated within an object, and every number is a whole one of 64 bits. -/
inductive IsExact : SyntaxTree → Prop
  | null : IsExact (.literal .null)
  | bool (value : Bool) : IsExact (.literal (.bool value))
  | whole {value : Int} : -(UInt64.size / 2 : Nat) ≤ value → value < UInt64.size →
      IsExact (.literal (.number (.whole value)))
  | text (content : String) : IsExact (.text content)
  | array {items : List SyntaxTree} : (∀ item ∈ items, IsExact item) → IsExact (.array items)
  | object {members : List (String × SyntaxTree)} : NamesDiffer members →
      (∀ member ∈ members, IsExact member.2) → IsExact (.object members)

theorem IsExact.isWhole_value {tree : SyntaxTree} (isExact : tree.IsExact) :
    tree.value.IsWhole := by
  induction isExact with
  | null => exact .null
  | bool value => exact .bool value
  | whole least most => exact .number least most
  | text content => exact .text content
  | array _ induction =>
      rw [value, itemValues_eq_map]
      exact .array (List.forall_mem_map.mpr induction)
  | @object members differ _ induction =>
      have areWhole : ∀ member ∈ memberValues members, member.2.IsWhole := by
        rw [memberValues_eq_map]
        exact List.forall_mem_map.mpr induction
      have namesDiffer : NamesDiffer (memberValues members) := by
        rw [memberValues_eq_map]
        exact differ.map value
      exact .object fun member isMember =>
        areWhole member ((Entries.ofList_perm namesDiffer).mem_iff.mp isMember)

/-- The tree of the text that is written of a value. -/
def canonical (tree : SyntaxTree) : SyntaxTree := ofValue tree.value

theorem node_array (items : List SyntaxTree) :
    (array items).node = .array (items.map node) .closed := by
  rw [node, itemNodes_eq_map]

theorem node_object (members : List (String × SyntaxTree)) :
    (object members).node = .record (members.map fun member => (member.1, member.2.node)) := by
  rw [node, memberNodes_eq_keyed, Node.record]

/-- Its values are put in their final form first, and its members in order then. -/
theorem IsExact.rearrangesTo_canonical {tree : SyntaxTree} (isExact : tree.IsExact) :
    tree.node.RearrangesTo tree.canonical.node := by
  induction isExact with
  | null => exact .refl
  | bool _ => exact .refl
  | whole _ _ => exact .refl
  | text _ => exact .refl
  | @array items _ induction =>
      have paired : List.Forall₂ Node.RearrangesTo (items.map node)
          (items.map fun item => item.canonical.node) :=
        List.forall₂_map_left_iff.mpr
          (List.forall₂_map_right_iff.mpr (List.forall₂_same.mpr induction))
      have isCanonical : (SyntaxTree.array items).canonical.node =
          Node.array (items.map fun item => item.canonical.node) .closed := by
        rw [canonical, value, ofValue, node_array, itemValues_eq_map, ofItems_eq_map,
          List.map_map, List.map_map]
        rfl
      rw [node_array, isCanonical]
      exact Node.rearrangesTo_items paired []
  | @object members differ _ induction =>
      let inForm := members.map fun member => (member.1, member.2.canonical.node)
      have paired : List.Forall₂ (fun member other => member.1 = other.1 ∧
          Node.RearrangesTo member.2 other.2)
            (members.map fun member => (member.1, member.2.node)) inForm :=
        List.forall₂_map_left_iff.mpr (List.forall₂_map_right_iff.mpr
          (List.forall₂_same.mpr fun member isMember => ⟨rfl, induction member isMember⟩))
      have values : (SyntaxTree.object members).node.RearrangesTo (.record inForm) := by
        rw [node_object]
        exact Node.rearrangesTo_members paired []
      have isCanonical : (SyntaxTree.object members).canonical.node =
          Node.record ((Entries.ofList (memberValues members)).map fun member =>
            (member.1, (ofValue member.2).node)) := by
        rw [canonical, value, ofValue, node_object, ofMembers_eq_map, List.map_map]
        rfl
      have sameMembers : (memberValues members).map
          (fun member => (member.1, (ofValue member.2).node)) = inForm := by
        rw [memberValues_eq_map, List.map_map]
        rfl
      have namesDiffer : NamesDiffer (memberValues members) := by
        rw [memberValues_eq_map]
        exact differ.map value
      have arranged := (Entries.ofList_perm namesDiffer).map fun member =>
        (member.1, (ofValue member.2).node)
      rw [sameMembers] at arranged
      rw [isCanonical]
      exact values.tail (.members (differ.map fun value => value.canonical.node) arranged.symm)

/-! What has a value is not nested too deep for it. -/

mutual

theorem depth_le_of_toValue : ∀ (tree : SyntaxTree) {depth : Nat} {result : Value},
    tree.node.toValue depth = .ok result → tree.depth ≤ depth
  | .literal _, depth, _, _ | .text _, depth, _, _ => Nat.zero_le depth
  | .array _, 0, _, isValue | .object _, 0, _, isValue => by
      rw [node, Node.toValue] at isValue
      cases isValue
  | .array items, depth + 1, _, isValue => by
      rw [node, Node.toValue, bind_eq_ok_iff] at isValue
      have ⟨_, areValues, _⟩ := isValue
      exact Nat.succ_le_succ (itemsDepth_le_of_itemValues items areValues)
  | .object members, depth + 1, _, isValue => by
      rw [node, Node.toValue, bind_eq_ok_iff] at isValue
      have ⟨_, areValues, _⟩ := isValue
      exact Nat.succ_le_succ (membersDepth_le_of_memberValues members areValues)

theorem itemsDepth_le_of_itemValues : ∀ (items : List SyntaxTree) {depth : Nat}
    {results : List Value}, Node.itemValues depth (itemNodes items) = .ok results →
      itemsDepth items ≤ depth
  | [], depth, _, _ => Nat.zero_le depth
  | item :: items, _, _, areValues => by
      simp only [itemNodes, Node.itemValues, bind_eq_ok_iff] at areValues
      have ⟨_, isFirst, _, areOthers, _⟩ := areValues
      exact Nat.max_le.mpr
        ⟨depth_le_of_toValue item isFirst, itemsDepth_le_of_itemValues items areOthers⟩

theorem membersDepth_le_of_memberValues : ∀ (members : List (String × SyntaxTree)) {depth : Nat}
    {results : List (String × Value)},
    Node.memberValues depth (memberNodes members) = .ok results → membersDepth members ≤ depth
  | [], depth, _, _ => Nat.zero_le depth
  | (_, value) :: members, _, _, areValues => by
      simp only [memberNodes, Node.memberValues, bind_eq_ok_iff] at areValues
      have ⟨_, _, _, isFirst, _, areOthers, _⟩ := areValues
      exact Nat.max_le.mpr
        ⟨depth_le_of_toValue value isFirst, membersDepth_le_of_memberValues members areOthers⟩

end

theorem toValue_node_iff {tree : SyntaxTree} {depth : Nat} {result : Value} :
    tree.node.toValue depth = .ok result ↔ tree.depth ≤ depth ∧ tree.value = result := by
  constructor
  · intro isValue
    have fits := tree.depth_le_of_toValue isValue
    rw [tree.toValue_node fits] at isValue
    exact ⟨fits, Except.ok.inj isValue⟩
  · rintro ⟨fits, rfl⟩
    exact tree.toValue_node fits

end SyntaxTree

end MetricWatch.Json
