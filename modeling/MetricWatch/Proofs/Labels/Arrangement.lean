import MetricWatch.Labels
import MetricWatch.Proofs.Lookup
import MetricWatch.Proofs.Text.Utf16

namespace MetricWatch

/-! Labels are written in the order of their names, whatever order they come in. -/

theorem labelOrder_total (left right : String × String) :
    (labelOrder left right || labelOrder right left) = true :=
  Bool.or_eq_true_iff.mpr (Utf16.unitsNotAfter_total _ _)

theorem labelOrder_trans (left middle right : String × String)
    (first : labelOrder left middle = true) (second : labelOrder middle right = true) :
    labelOrder left right = true :=
  Utf16.unitsNotAfter_trans first second

theorem labelOrder_of_same_name {left right : String × String} (same : left.1 = right.1) :
    labelOrder left right = true := by
  rw [labelOrder, same]
  exact Utf16.unitsNotAfter_refl _

/-- The same pairs in the order of their names. Of each name they are in the order given. -/
structure IsArranged (sorted pairs : List (String × String)) : Prop where
  samePairs : sorted.Perm pairs
  inOrder : sorted.Pairwise fun left right =>
    Utf16.InOrder (Utf16.encode left.1.toList) (Utf16.encode right.1.toList)
  stable : ∀ name, sorted.filter (fun pair => pair.1 == name) =
    pairs.filter (fun pair => pair.1 == name)

theorem filter_mergeSort_labelOrder (pairs : List (String × String)) (name : String) :
    (pairs.mergeSort labelOrder).filter (fun pair => pair.1 == name) =
      pairs.filter (fun pair => pair.1 == name) := by
  have isNamed : ∀ pair ∈ pairs.filter (fun pair => pair.1 == name), pair.1 = name :=
    fun pair member => eq_of_beq (List.mem_filter.mp member).2
  have tied : (pairs.filter fun pair => pair.1 == name).Pairwise
      fun left right => labelOrder left right = true :=
    List.pairwise_of_forall_mem_list fun left isLeft right isRight =>
      labelOrder_of_same_name ((isNamed left isLeft).trans (isNamed right isRight).symm)
  -- What is in order already is found in the sorted list again, and there is no more of this name.
  have inSorted := List.sublist_mergeSort labelOrder_trans labelOrder_total tied List.filter_sublist
  have inNamed := inSorted.filter fun pair => pair.1 == name
  rw [List.filter_filter] at inNamed
  simp only [Bool.and_self] at inNamed
  have arranged := (List.mergeSort_perm pairs labelOrder).filter fun pair => pair.1 == name
  exact (inNamed.eq_of_length arranged.length_eq.symm).symm

theorem isArranged_mergeSort (pairs : List (String × String)) :
    IsArranged (pairs.mergeSort labelOrder) pairs where
  samePairs := List.mergeSort_perm pairs labelOrder
  inOrder := (List.pairwise_mergeSort labelOrder_trans labelOrder_total pairs).imp
    Utf16.unitsNotAfter_iff_inOrder.mp
  stable := filter_mergeSort_labelOrder pairs

/-- Pairs with different names can be put in order in one way only. -/
theorem mergeSort_labelOrder_of_perm {pairs others : List (String × String)}
    (arranged : others.Perm pairs) (differ : NamesDiffer pairs) :
    others.mergeSort labelOrder = pairs.mergeSort labelOrder := by
  have samePairs : (others.mergeSort labelOrder).Perm (pairs.mergeSort labelOrder) :=
    ((List.mergeSort_perm others labelOrder).trans arranged).trans
      (List.mergeSort_perm pairs labelOrder).symm
  refine samePairs.eq_of_pairwise ?_
    (List.pairwise_mergeSort labelOrder_trans labelOrder_total others)
    (List.pairwise_mergeSort labelOrder_trans labelOrder_total pairs)
  intro left right isLeft isRight inOrder reversed
  have leftGiven := arranged.mem_iff.mp (List.mem_mergeSort.mp isLeft)
  have rightGiven := List.mem_mergeSort.mp isRight
  exact differ.eq_of_mem leftGiven rightGiven (Utf16.notAfter_antisymm inOrder reversed)

/-- Labels of which the names have no character beyond U+FFFF are written in their own order. -/
theorem Labels.toText_of_isBasic {labels : Labels}
    (basic : ∀ entry ∈ labels.entries, Utf16.IsBasic entry.1) :
    labels.toText = ",".intercalate (labels.entries.map pairText) := by
  have inOrder : labels.entries.Pairwise fun left right => labelOrder left right = true := by
    refine labels.ascending.imp_of_mem ?_
    intro left right isLeft isRight below
    exact (Utf16.notAfter_iff_le (basic left isLeft) (basic right isRight)).mpr
      (String.lt_asymm below)
  rw [Labels.toText, labelsText, List.mergeSort_of_pairwise inOrder]

/-- The text of labels depends on the labels only, not on the order in which they are given. -/
theorem labelsText_canonical (pairs : List (String × String)) :
    (∃ sorted, IsArranged sorted pairs ∧
      labelsText pairs = ",".intercalate (sorted.map fun pair => pair.1 ++ "=" ++ pair.2)) ∧
    (∀ {others}, others.Perm pairs → NamesDiffer pairs → labelsText others = labelsText pairs) ∧
    (∀ {left right}, Utf16.IsBasic left → Utf16.IsBasic right →
      (Utf16.InOrder (Utf16.encode left.toList) (Utf16.encode right.toList) ↔ left ≤ right)) ∧
    ∀ labels : Labels, (∀ entry ∈ labels.entries, Utf16.IsBasic entry.1) →
      labels.toText =
        ",".intercalate (labels.entries.map fun entry => entry.1 ++ "=" ++ entry.2) := by
  refine ⟨⟨_, isArranged_mergeSort pairs, rfl⟩, ?_, ?_, fun _ => Labels.toText_of_isBasic⟩
  · intro others arranged differ
    rw [labelsText, labelsText, mergeSort_labelOrder_of_perm arranged differ]
  · intro left right leftBasic rightBasic
    rw [← Utf16.unitsNotAfter_iff_inOrder]
    exact Utf16.notAfter_iff_le leftBasic rightBasic

/-! Names beyond U+FFFF come before the last ones below it. -/

def symbolLabels : List (String × String) :=
  [("～", "wide"), ("😀", "smile"), ("z", "ascii")]

def codeLabels : Labels :=
  .ofList [("job", "api"), ("code", "200")]

theorem labelsText_canonical_symbols :
    [("z", "ascii"), ("～", "wide"), ("😀", "smile")].Perm symbolLabels ∧
      NamesDiffer symbolLabels ∧
      labelsText [("z", "ascii"), ("～", "wide"), ("😀", "smile")] = labelsText symbolLabels ∧
      Utf16.IsBasic "z" ∧ Utf16.IsBasic "～" ∧
      Utf16.InOrder (Utf16.encode "z".toList) (Utf16.encode "～".toList) ∧
      (∀ entry ∈ codeLabels.entries, Utf16.IsBasic entry.1) ∧
      codeLabels.toText = "code=200,job=api" := by
  have arranged : [("z", "ascii"), ("～", "wide"), ("😀", "smile")].Perm symbolLabels := by decide
  have differ : NamesDiffer symbolLabels := by
    unfold NamesDiffer
    decide
  have latin : Utf16.IsBasic "z" := by decide
  have wide : Utf16.IsBasic "～" := by decide
  have isEntries : codeLabels.entries = [("code", "200"), ("job", "api")] := by decide +kernel
  have basic : ∀ entry ∈ codeLabels.entries, Utf16.IsBasic entry.1 := by
    rw [isEntries]
    decide
  have ⟨_, sameText, byCodePoint, ownOrder⟩ := labelsText_canonical symbolLabels
  refine ⟨arranged, differ, sameText arranged differ, latin, wide, ?_, basic, ?_⟩
  · exact (byCodePoint latin wide).mpr (by decide)
  · rw [ownOrder codeLabels basic, isEntries]
    decide

end MetricWatch
