namespace MetricWatch

/-- The parts of a text between the characters that separate them. There is always
one part more than there are separators. -/
def partsBetween (separates : Char → Bool) : List Char → List (List Char)
  | [] => [[]]
  | character :: rest =>
      if separates character then [] :: partsBetween separates rest
      else
        match partsBetween separates rest with
        | [] => [[character]]
        | part :: parts => (character :: part) :: parts

/-- The parts with a separator between every two of them. -/
def joinParts (separator : Char) : List (List Char) → List Char
  | [] => []
  | [last] => last
  | part :: parts => part ++ separator :: joinParts separator parts

example : partsBetween (· == '/') "a//b".toList = ["a".toList, [], "b".toList] := by
  decide +kernel

theorem partsBetween_ne_nil (separates : Char → Bool) (text : List Char) :
    partsBetween separates text ≠ [] := by
  cases text with
  | nil => simp [partsBetween]
  | cons character rest =>
      simp only [partsBetween]
      split
      · simp
      · split <;> simp

/-- No part holds a separator. -/
theorem not_separates_of_mem_partsBetween {separates : Char → Bool} {text part : List Char}
    (isPart : part ∈ partsBetween separates text) {character : Char} (member : character ∈ part) :
    separates character = false := by
  induction text generalizing part with
  | nil =>
      rw [List.mem_singleton.mp isPart] at member
      cases member
  | cons first rest induction =>
      simp only [partsBetween] at isPart
      split at isPart
      · rcases List.mem_cons.mp isPart with rfl | later
        · cases member
        · exact induction later member
      · rename_i notSeparator
        split at isPart
        · rw [List.mem_singleton.mp isPart] at member
          rw [List.mem_singleton.mp member]
          simpa using notSeparator
        · rename_i next others equal
          rcases List.mem_cons.mp isPart with rfl | later
          · rcases List.mem_cons.mp member with rfl | inNext
            · simpa using notSeparator
            · exact induction (equal ▸ List.mem_cons_self) inNext
          · exact induction (equal ▸ List.mem_cons_of_mem next later) member

theorem partsBetween_of_forall {separates : Char → Bool} {text : List Char}
    (none : ∀ character ∈ text, separates character = false) :
    partsBetween separates text = [text] := by
  induction text with
  | nil => rfl
  | cons character rest induction =>
      rw [List.forall_mem_cons] at none
      simp [partsBetween, none.1, induction none.2]

theorem partsBetween_append {separates : Char → Bool} {text rest part : List Char}
    {parts : List (List Char)} (none : ∀ character ∈ text, separates character = false)
    (isParted : partsBetween separates rest = part :: parts) :
    partsBetween separates (text ++ rest) = (text ++ part) :: parts := by
  induction text with
  | nil => exact isParted
  | cons character text induction =>
      rw [List.forall_mem_cons] at none
      simp [partsBetween, none.1, induction none.2]

end MetricWatch
