import MetricWatch.Text.Parts

namespace MetricWatch

/-! Parts that do not hold the mark between them are found again. -/

section Mark

variable {mark : Char} {text : List Char} (notMember : mark ∉ text)

include notMember

theorem beq_mark : ∀ character ∈ text, (character == mark) = false := by
  intro character member
  exact beq_false_of_ne fun same => notMember (same ▸ member)

theorem partsBetween_of_not_mem : partsBetween (· == mark) text = [text] :=
  partsBetween_of_forall (beq_mark notMember)

theorem partsBetween_append_mark (behind : List Char) :
    partsBetween (· == mark) (text ++ mark :: behind) =
      text :: partsBetween (· == mark) behind := by
  have parted : partsBetween (· == mark) (mark :: behind) =
      [] :: partsBetween (· == mark) behind := by
    rw [partsBetween, if_pos (beq_self_eq_true mark)]
  rw [partsBetween_append (beq_mark notMember) parted, List.append_nil]

end Mark

theorem partsBetween_intercalate {mark : Char} {part : List Char} {parts : List (List Char)}
    (apart : ∀ other ∈ part :: parts, mark ∉ other) :
    partsBetween (· == mark) ([mark].intercalate (part :: parts)) = part :: parts := by
  induction parts generalizing part with
  | nil =>
      rw [List.intercalate_singleton]
      exact partsBetween_of_not_mem (apart part List.mem_cons_self)
  | cons next parts induction =>
      have ⟨notInPart, apartLater⟩ := List.forall_mem_cons.mp apart
      rw [List.intercalate_cons_cons, List.append_assoc, List.singleton_append,
        partsBetween_append_mark notInPart, induction apartLater]

/-- What is before the last mark and what is behind it. -/
def cutAtLast (mark : Char) (text : List Char) : List Char × List Char :=
  ((text.reverse.dropWhile (· != mark)).tail.reverse, (text.reverse.takeWhile (· != mark)).reverse)

theorem cutAtLast_append {mark : Char} {behind : List Char} (notMember : mark ∉ behind)
    (before : List Char) : cutAtLast mark (before ++ mark :: behind) = (before, behind) := by
  have others : ∀ character ∈ behind.reverse, (character != mark) = true := by
    intro character member
    exact bne_iff_ne.mpr fun same => notMember (same ▸ List.mem_reverse.mp member)
  have reversed :
      (before ++ mark :: behind).reverse = behind.reverse ++ mark :: before.reverse := by
    simp only [List.reverse_append, List.reverse_cons, List.append_assoc, List.singleton_append]
  have isMark : (mark != mark) = false := bne_self_eq_false mark
  rw [cutAtLast, reversed, List.dropWhile_append_of_pos others,
    List.takeWhile_append_of_pos others]
  simp only [List.dropWhile_cons, List.takeWhile_cons, isMark, Bool.false_eq_true, if_false,
    List.tail_cons, List.reverse_reverse, List.append_nil]

end MetricWatch
