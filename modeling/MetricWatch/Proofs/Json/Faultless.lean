import MetricWatch.Proofs.Json.Grammar

namespace MetricWatch.Json

/-! A tree without faults has a value, if it is not nested too deep, and nothing is met
when it is passed over. -/

namespace Node

/-! An object whose keys can all be read. -/

def keyed (members : List (String × Node)) : List (Lexeme String × Node) :=
  members.map fun member => (SyntaxTree.faultless member.1, member.2)

def record (members : List (String × Node)) : Node := .object (keyed members) .closed

theorem skimFault?_record {members : List (String × Node)} :
    (record members).skimFault? = none ↔ ∀ member ∈ members, member.2.skimFault? = none := by
  have passed : ∀ members, (record members).skimFault? = skimMembers (keyed members) := by
    intro members
    rw [record, skimFault?]
    cases skimMembers (keyed members) <;> rfl
  rw [passed]
  induction members with
  | nil => simp [keyed, skimMembers]
  | cons first members induction =>
      have next : skimMembers (keyed (first :: members)) =
          (first.2.skimFault? <|> skimMembers (keyed members)) := rfl
      simp only [next, List.forall_mem_cons, ← induction]
      cases first.2.skimFault? <;> simp

end Node

namespace SyntaxTree

mutual

/-- How deep arrays and objects are nested. -/
def depth : SyntaxTree → Nat
  | .literal _ | .text _ => 0
  | .array items => itemsDepth items + 1
  | .object members => membersDepth members + 1

def itemsDepth : List SyntaxTree → Nat
  | [] => 0
  | item :: items => max item.depth (itemsDepth items)

def membersDepth : List (String × SyntaxTree) → Nat
  | [] => 0
  | (_, value) :: members => max value.depth (membersDepth members)

end

mutual

def value : SyntaxTree → Value
  | .literal atom => .ofLiteral atom
  | .text content => .text content
  | .array items => .array (itemValues items)
  | .object members => .object (Entries.ofList (memberValues members))

def itemValues : List SyntaxTree → List Value
  | [] => []
  | item :: items => item.value :: itemValues items

def memberValues : List (String × SyntaxTree) → List (String × Value)
  | [] => []
  | (name, value) :: members => (name, value.value) :: memberValues members

end

theorem depth_le_itemsDepth {item : SyntaxTree} {items : List SyntaxTree}
    (member : item ∈ items) :
    item.depth ≤ itemsDepth items := by
  induction items with
  | nil => cases member
  | cons first items induction =>
      rw [itemsDepth]
      rcases List.mem_cons.mp member with rfl | later
      · exact Nat.le_max_left _ _
      · exact Nat.le_trans (induction later) (Nat.le_max_right _ _)

theorem depth_le_membersDepth {name : String} {value : SyntaxTree}
    {members : List (String × SyntaxTree)}
    (member : (name, value) ∈ members) : value.depth ≤ membersDepth members := by
  induction members with
  | nil => cases member
  | cons first members induction =>
      rw [membersDepth]
      rcases List.mem_cons.mp member with rfl | later
      · exact Nat.le_max_left _ _
      · exact Nat.le_trans (induction later) (Nat.le_max_right _ _)

theorem itemsDepth_le {items : List SyntaxTree} {bound : Nat}
    (fit : ∀ item ∈ items, item.depth ≤ bound) : itemsDepth items ≤ bound := by
  induction items with
  | nil => exact Nat.zero_le bound
  | cons first items induction =>
      have ⟨firstFits, othersFit⟩ := List.forall_mem_cons.mp fit
      exact Nat.max_le.mpr ⟨firstFits, induction othersFit⟩

theorem membersDepth_le {members : List (String × SyntaxTree)} {bound : Nat}
    (fit : ∀ member ∈ members, member.2.depth ≤ bound) : membersDepth members ≤ bound := by
  induction members with
  | nil => exact Nat.zero_le bound
  | cons first members induction =>
      have ⟨firstFits, othersFit⟩ := List.forall_mem_cons.mp fit
      exact Nat.max_le.mpr ⟨firstFits, induction othersFit⟩

theorem memberValues_eq_map (members : List (String × SyntaxTree)) :
    memberValues members = members.map fun member => (member.1, member.2.value) := by
  induction members with
  | nil => rfl
  | cons first members induction => rw [memberValues, induction, List.map_cons]

theorem memberNodes_eq_keyed (members : List (String × SyntaxTree)) :
    memberNodes members = Node.keyed (members.map fun member => (member.1, member.2.node)) := by
  induction members with
  | nil => rfl
  | cons first members induction =>
      rw [memberNodes, induction]
      rfl

theorem itemNodes_eq_map (items : List SyntaxTree) : itemNodes items = items.map node := by
  induction items with
  | nil => rfl
  | cons first items induction => rw [itemNodes, induction, List.map_cons]

theorem itemValues_eq_map (items : List SyntaxTree) : itemValues items = items.map value := by
  induction items with
  | nil => rfl
  | cons first items induction => rw [itemValues, induction, List.map_cons]

mutual

theorem toValue_node : ∀ (tree : SyntaxTree) {depth : Nat}, tree.depth ≤ depth →
    tree.node.toValue depth = .ok tree.value
  | .literal _, _, _ | .text _, _, _ => by
      rw [node, Node.toValue, value]
      rfl
  | .array items, 0, fits => absurd fits (Nat.not_succ_le_zero _)
  | .array items, depth + 1, fits => by
      have values := itemValues_itemNodes items (Nat.le_of_succ_le_succ fits)
      simp only [node, Node.toValue, values, value]
      rfl
  | .object members, 0, fits => absurd fits (Nat.not_succ_le_zero _)
  | .object members, depth + 1, fits => by
      have values := memberValues_memberNodes members (Nat.le_of_succ_le_succ fits)
      simp only [node, Node.toValue, values, value]
      rfl

theorem itemValues_itemNodes : ∀ (items : List SyntaxTree) {depth : Nat},
    itemsDepth items ≤ depth →
    Node.itemValues depth (itemNodes items) = .ok (itemValues items)
  | [], _, _ => rfl
  | item :: items, depth, fits => by
      have ⟨first, others⟩ := Nat.max_le.mp fits
      simp only [itemNodes, Node.itemValues, toValue_node item first,
        itemValues_itemNodes items others, itemValues]
      rfl

theorem memberValues_memberNodes : ∀ (members : List (String × SyntaxTree)) {depth : Nat},
    membersDepth members ≤ depth →
      Node.memberValues depth (memberNodes members) = .ok (memberValues members)
  | [], _, _ => rfl
  | (name, value) :: members, depth, fits => by
      have ⟨first, others⟩ := Nat.max_le.mp fits
      simp only [memberNodes, Node.memberValues, toValue_node value first,
        memberValues_memberNodes members others, memberValues, faultless]
      rfl

end

mutual

theorem skimFault?_node : ∀ tree : SyntaxTree, tree.node.skimFault? = none
  | .literal _ | .text _ => rfl
  | .array items => by
      simp only [node, Node.skimFault?, skimItems_itemNodes items]
      rfl
  | .object members => by
      simp only [node, Node.skimFault?, skimMembers_memberNodes members]
      rfl

theorem skimItems_itemNodes : ∀ items : List SyntaxTree, Node.skimItems (itemNodes items) = none
  | [] => rfl
  | item :: items => by
      simp only [itemNodes, Node.skimItems, skimFault?_node item, skimItems_itemNodes items]
      rfl

theorem skimMembers_memberNodes : ∀ members : List (String × SyntaxTree),
    Node.skimMembers (memberNodes members) = none
  | [] => rfl
  | (_, value) :: members => by
      simp only [memberNodes, Node.skimMembers, skimFault?_node value,
        skimMembers_memberNodes members, faultless]
      rfl

end

end SyntaxTree

end MetricWatch.Json
