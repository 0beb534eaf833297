namespace MetricWatch

/-- Entries named by a key, in ascending order of their keys and at most one for
each key. Keys are ordered by code point, which is also the order of their UTF-8
bytes. -/
abbrev Entries (Content : Type) := List (String × Content)

namespace Entries

def Ascending (entries : Entries Content) : Prop :=
  entries.Pairwise fun left right => left.1 < right.1

/-- A new entry takes the place of an earlier one with the same key. -/
def insert (key : String) (content : Content) : Entries Content → Entries Content
  | [] => [(key, content)]
  | entry :: entries =>
      if key < entry.1 then (key, content) :: entry :: entries
      else if key = entry.1 then (key, content) :: entries
      else entry :: insert key content entries

def ofList (pairs : List (String × Content)) : Entries Content :=
  pairs.foldl (fun entries pair => insert pair.1 pair.2 entries) []

/-- The content of the entry with a key. -/
def find? (entries : Entries Content) (key : String) : Option Content :=
  (List.find? (fun entry => entry.1 == key) entries).map (·.2)

example : ofList [("b", 1), ("a", 2), ("b", 3)] = [("a", 2), ("b", 3)] := by decide +kernel

theorem mem_insert {key : String} {content : Content} {entries : Entries Content}
    {entry : String × Content} (member : entry ∈ insert key content entries) :
    entry = (key, content) ∨ entry ∈ entries := by
  induction entries with
  | nil =>
      simp only [insert, List.mem_singleton] at member
      exact .inl member
  | cons head tail induction =>
      simp only [insert] at member
      split at member
      · exact List.mem_cons.mp member
      · split at member
        · rcases List.mem_cons.mp member with same | later
          · exact .inl same
          · exact .inr (.tail _ later)
        · rcases List.mem_cons.mp member with same | later
          · exact .inr (same ▸ .head _)
          · rcases induction later with same | earlier
            · exact .inl same
            · exact .inr (.tail _ earlier)

theorem insert_ascending (key : String) (content : Content) {entries : Entries Content}
    (ascending : entries.Ascending) : (insert key content entries).Ascending := by
  induction entries with
  | nil => exact List.pairwise_singleton _ _
  | cons head tail induction =>
      have ⟨headBelow, tailAscending⟩ := List.pairwise_cons.mp ascending
      simp only [insert]
      split
      · rename_i below
        refine List.pairwise_cons.mpr ⟨?_, ascending⟩
        intro entry member
        rcases List.mem_cons.mp member with same | later
        · exact same ▸ below
        · exact String.lt_trans below (headBelow entry later)
      · rename_i notBelow
        split
        · rename_i same
          refine List.pairwise_cons.mpr ⟨?_, tailAscending⟩
          intro entry member
          exact same ▸ headBelow entry member
        · rename_i different
          refine List.pairwise_cons.mpr ⟨?_, induction tailAscending⟩
          intro entry member
          rcases mem_insert member with same | earlier
          · subst same
            apply Decidable.byContradiction
            intro notAbove
            exact different (String.le_antisymm (String.not_lt.mp notAbove)
              (String.not_lt.mp notBelow))
          · exact headBelow entry earlier

theorem ofList_ascending (pairs : List (String × Content)) : (ofList pairs).Ascending := by
  have kept : ∀ (pairs : List (String × Content)) (entries : Entries Content),
      entries.Ascending →
        (pairs.foldl (fun entries pair => insert pair.1 pair.2 entries) entries).Ascending := by
    intro pairs
    induction pairs with
    | nil => exact fun _ ascending => ascending
    | cons pair pairs induction =>
        intro entries ascending
        exact induction _ (insert_ascending pair.1 pair.2 ascending)
  exact kept pairs [] .nil

end Entries

end MetricWatch
