import MetricWatch.Proofs.Labels.Arrangement
import MetricWatch.Proofs.Text.Parts

namespace MetricWatch

/-! Labels are read back from their text if nothing in them is taken for a separator. -/

/-- A name and a value, around the first `=` of a piece of text. -/
def pairOfPiece? (piece : List Char) : Option (String × String) :=
  match piece.dropWhile (· != '=') with
  | [] => none
  | _ :: value => some (String.ofList (piece.takeWhile (· != '=')), String.ofList value)

/-- The labels in a text, of which every piece between two commas is a pair or empty. -/
def Labels.ofText? (text : String) : Option Labels :=
  let pieces := (partsBetween (· == ',') text.toList).filter fun piece => !piece.isEmpty
  (pieces.mapM pairOfPiece?).map Labels.ofList

example : pairOfPiece? "a=b=c".toList = some ("a", "b=c") := by decide +kernel

/-- No comma, and no `=` but in a value. -/
structure IsSplittable (pairs : List (String × String)) : Prop where
  noComma : ∀ pair ∈ pairs, ',' ∉ pair.1.toList ∧ ',' ∉ pair.2.toList
  noEquals : ∀ pair ∈ pairs, '=' ∉ pair.1.toList

theorem toList_pairText (pair : String × String) :
    (pairText pair).toList = pair.1.toList ++ '=' :: pair.2.toList := by
  rw [pairText, String.toList_append, String.toList_append, List.append_assoc]
  rfl

theorem pairOfPiece?_pairText {pair : String × String} (noEquals : '=' ∉ pair.1.toList) :
    pairOfPiece? (pairText pair).toList = some pair := by
  have isName : ∀ character ∈ pair.1.toList, (character != '=') = true := by
    intro character member
    exact bne_iff_ne.mpr (ne_of_mem_of_not_mem member noEquals)
  rw [toList_pairText, pairOfPiece?, List.dropWhile_append_of_pos isName,
    List.takeWhile_append_of_pos isName]
  simp

theorem IsSplittable.of_perm {pairs others : List (String × String)}
    (splittable : IsSplittable others) (arranged : pairs.Perm others) : IsSplittable pairs where
  noComma pair member := splittable.noComma pair (arranged.mem_iff.mp member)
  noEquals pair member := splittable.noEquals pair (arranged.mem_iff.mp member)

/-- No piece is lost or torn, and none is empty, since all of them hold an `=`. -/
theorem pieces_of_pairs {pairs : List (String × String)} (splittable : IsSplittable pairs) :
    (partsBetween (· == ',') (",".intercalate (pairs.map pairText)).toList).filter
        (fun piece => !piece.isEmpty) =
      pairs.map fun pair => (pairText pair).toList := by
  cases pairs with
  | nil => rfl
  | cons first pairs =>
      have apart : ∀ piece ∈ (first :: pairs).map fun pair => (pairText pair).toList,
          ',' ∉ piece := by
        intro piece member
        rcases List.mem_map.mp member with ⟨pair, isPair, rfl⟩
        have ⟨notInName, notInValue⟩ := splittable.noComma pair isPair
        have notBetween : ',' ≠ '=' := by decide
        simp only [toList_pairText, List.mem_append, List.mem_cons, notInName, notInValue,
          notBetween, or_self, not_false_eq_true]
      have notEmpty : ∀ piece ∈ (first :: pairs).map fun pair => (pairText pair).toList,
          (!piece.isEmpty) = true := by
        intro piece member
        rcases List.mem_map.mp member with ⟨pair, _, rfl⟩
        simp [toList_pairText]
      have isText : (",".intercalate ((first :: pairs).map pairText)).toList =
          [','].intercalate ((first :: pairs).map fun pair => (pairText pair).toList) := by
        rw [String.toList_intercalate, List.map_map]
        rfl
      rw [isText, List.map_cons, partsBetween_intercalate apart]
      exact List.filter_eq_self.mpr notEmpty

theorem mapM_pairOfPiece? {pairs : List (String × String)}
    (noEquals : ∀ pair ∈ pairs, '=' ∉ pair.1.toList) :
    (pairs.map fun pair => (pairText pair).toList).mapM pairOfPiece? = some pairs := by
  induction pairs with
  | nil => rfl
  | cons first pairs induction =>
      rw [List.forall_mem_cons] at noEquals
      rw [List.map_cons, List.mapM_cons, pairOfPiece?_pairText noEquals.1, induction noEquals.2]
      rfl

theorem Labels.ofText?_toText {labels : Labels} (splittable : IsSplittable labels.entries) :
    Labels.ofText? labels.toText = some labels := by
  have arranged := List.mergeSort_perm labels.entries labelOrder
  have sortedSplittable := splittable.of_perm arranged
  have sameEntries : Entries.ofList (labels.entries.mergeSort labelOrder) = labels.entries := by
    rw [Entries.ofList_of_perm arranged labels.ascending.namesDiffer,
      Entries.ofList_of_ascending labels.ascending]
  rw [ofText?, toText, labelsText, pieces_of_pairs sortedSplittable,
    mapM_pairOfPiece? sortedSplittable.noEquals, Option.map_some]
  cases labels
  simp only [ofList, sameEntries]

/-- Labels without separators in them are split off their text again, so the text stands for no
other such labels. -/
theorem Labels.splitsBack {labels : Labels} (splittable : IsSplittable labels.entries) :
    Labels.ofText? labels.toText = some labels ∧
      ∀ {other : Labels}, IsSplittable other.entries → other.toText = labels.toText →
        other = labels := by
  refine ⟨ofText?_toText splittable, fun otherSplittable sameText => ?_⟩
  have isOther := ofText?_toText otherSplittable
  rw [sameText, ofText?_toText splittable] at isOther
  exact (Option.some.inj isOther).symm

/-! A name or a value may be empty, and a value may hold an `=`. -/

def queryLabels : Labels :=
  .ofList [("query", "a=b"), ("", ""), ("zone", "")]

def reorderedLabels : Labels :=
  .ofList [("zone", ""), ("query", "a=b"), ("", "")]

theorem queryLabels_splitsBack :
    IsSplittable queryLabels.entries ∧ IsSplittable reorderedLabels.entries ∧
      reorderedLabels.toText = queryLabels.toText ∧
      Labels.ofText? queryLabels.toText = some queryLabels ∧ reorderedLabels = queryLabels := by
  have isEntries : queryLabels.entries = [("", ""), ("query", "a=b"), ("zone", "")] := by
    decide +kernel
  have isReordered : reorderedLabels.entries = [("", ""), ("query", "a=b"), ("zone", "")] := by
    decide +kernel
  have splittable : IsSplittable [("", ""), ("query", "a=b"), ("zone", "")] :=
    ⟨by decide, by decide⟩
  have sameText : reorderedLabels.toText = queryLabels.toText := by
    rw [Labels.toText, Labels.toText, isEntries, isReordered]
  rw [← isEntries] at splittable
  have otherSplittable := splittable
  rw [isEntries, ← isReordered] at otherSplittable
  exact ⟨splittable, otherSplittable, sameText, (Labels.splitsBack splittable).1,
    (Labels.splitsBack splittable).2 otherSplittable sameText⟩

end MetricWatch
