import MetricWatch.Text.Utf16

namespace MetricWatch.Utf16

/-! The order of texts by their UTF-16 code units. It is total, ties only on equal texts, and is
the order by code point where no character is beyond U+FFFF. -/

/-- Units are in order if the first ones are only a part of the others, or have the smaller unit
where they first differ. -/
def InOrder (left right : List Nat) : Prop :=
  left <+: right ∨ ∃ common unit other leftRest rightRest, left = common ++ unit :: leftRest ∧
    right = common ++ other :: rightRest ∧ unit < other

theorem unitsNotAfter_cons_cons {left right : Nat} {lefts rights : List Nat} :
    unitsNotAfter (left :: lefts) (right :: rights) = true ↔
      left < right ∨ left = right ∧ unitsNotAfter lefts rights = true := by
  simp [unitsNotAfter]

theorem inOrder_cons_cons {left right : Nat} {lefts rights : List Nat} :
    InOrder (left :: lefts) (right :: rights) ↔
      left < right ∨ left = right ∧ InOrder lefts rights := by
  constructor
  · rintro (isPrefix | ⟨common, unit, other, leftRest, rightRest, isLeft, isRight, less⟩)
    · have ⟨same, isPrefix⟩ := List.cons_prefix_cons.mp isPrefix
      exact .inr ⟨same, .inl isPrefix⟩
    · cases common with
      | nil =>
          cases isLeft
          cases isRight
          exact .inl less
      | cons first common =>
          cases isLeft
          cases isRight
          exact .inr ⟨rfl, .inr ⟨common, unit, other, leftRest, rightRest, rfl, rfl, less⟩⟩
  · rintro (less | ⟨rfl, isPrefix | ⟨common, unit, other, leftRest, rightRest, rfl, rfl, less⟩⟩)
    · exact .inr ⟨[], left, right, lefts, rights, rfl, rfl, less⟩
    · exact .inl (List.cons_prefix_cons.mpr ⟨rfl, isPrefix⟩)
    · exact .inr ⟨left :: common, unit, other, leftRest, rightRest, rfl, rfl, less⟩

theorem unitsNotAfter_iff_inOrder {left right : List Nat} :
    unitsNotAfter left right = true ↔ InOrder left right := by
  induction left generalizing right with
  | nil => exact iff_of_true rfl (.inl (List.nil_prefix))
  | cons first lefts induction =>
      cases right with
      | nil =>
          refine iff_of_false Bool.false_ne_true ?_
          rintro (isPrefix | ⟨common, _, _, _, _, _, isRight, _⟩)
          · exact List.cons_ne_nil _ _ (List.prefix_nil.mp isPrefix)
          · exact List.append_ne_nil_of_right_ne_nil common (List.cons_ne_nil _ _) isRight.symm
      | cons second rights => rw [unitsNotAfter_cons_cons, inOrder_cons_cons, induction]

/-! A total order. -/

theorem unitsNotAfter_refl (units : List Nat) : unitsNotAfter units units = true :=
  unitsNotAfter_iff_inOrder.mpr (.inl (List.prefix_refl units))

theorem unitsNotAfter_total (left right : List Nat) :
    unitsNotAfter left right = true ∨ unitsNotAfter right left = true := by
  induction left generalizing right with
  | nil => exact .inl rfl
  | cons first lefts induction =>
      cases right with
      | nil => exact .inr rfl
      | cons second rights =>
          rw [unitsNotAfter_cons_cons, unitsNotAfter_cons_cons]
          rcases Nat.lt_trichotomy first second with less | same | more
          · exact .inl (.inl less)
          · rcases induction rights with inOrder | reversed
            · exact .inl (.inr ⟨same, inOrder⟩)
            · exact .inr (.inr ⟨same.symm, reversed⟩)
          · exact .inr (.inl more)

theorem unitsNotAfter_trans {left middle right : List Nat}
    (first : unitsNotAfter left middle = true) (second : unitsNotAfter middle right = true) :
    unitsNotAfter left right = true := by
  induction left generalizing middle right with
  | nil => rfl
  | cons unit lefts induction =>
      cases middle with
      | nil => cases first
      | cons other middles =>
          cases right with
          | nil => cases second
          | cons third rights =>
              rw [unitsNotAfter_cons_cons] at first second ⊢
              rcases first with less | ⟨rfl, inOrder⟩
              · rcases second with further | ⟨rfl, _⟩
                · exact .inl (Nat.lt_trans less further)
                · exact .inl less
              · exact second.imp_right fun ⟨same, further⟩ => ⟨same, induction inOrder further⟩

theorem unitsNotAfter_antisymm {left right : List Nat} (inOrder : unitsNotAfter left right = true)
    (reversed : unitsNotAfter right left = true) : left = right := by
  induction left generalizing right with
  | nil =>
      cases right with
      | nil => rfl
      | cons _ _ => cases reversed
  | cons first lefts induction =>
      cases right with
      | nil => cases inOrder
      | cons second rights =>
          rw [unitsNotAfter_cons_cons] at inOrder reversed
          rcases inOrder with less | ⟨rfl, inOrder⟩
          · omega
          · have reversed := (reversed.resolve_left (Nat.lt_irrefl first)).2
            rw [induction inOrder reversed]

/-! A text can be read off its units. -/

/-- Surrogates are no characters, so the first unit tells whether there is a second one. -/
theorem units_append_inj {left right : Char} {lefts rights : List Nat}
    (same : units left ++ lefts = units right ++ rights) : left = right ∧ lefts = rights := by
  have leftValid : left.toNat < 0xD800 ∨ 0xDFFF < left.toNat ∧ left.toNat < 0x110000 := left.valid
  have rightValid : right.toNat < 0xD800 ∨ 0xDFFF < right.toNat ∧ right.toNat < 0x110000 :=
    right.valid
  rw [← Char.toNat_inj]
  unfold units at same
  dsimp only at same
  split at same <;> split at same
  case isTrue.isTrue => exact List.cons.inj same
  case isTrue.isFalse =>
    have sameUnit := (List.cons.inj same).1
    omega
  case isFalse.isTrue =>
    have sameUnit := (List.cons.inj same).1
    omega
  case isFalse.isFalse =>
    have ⟨sameHigh, sameBehind⟩ := List.cons.inj same
    have ⟨sameLow, sameRest⟩ := List.cons.inj sameBehind
    exact ⟨by omega, sameRest⟩

theorem units_ne_nil (character : Char) : units character ≠ [] := by
  unfold units
  dsimp only
  split <;> exact List.cons_ne_nil _ _

theorem encode_cons (character : Char) (text : List Char) :
    encode (character :: text) = units character ++ encode text :=
  List.flatMap_cons

theorem encode_injective {left right : List Char} (same : encode left = encode right) :
    left = right := by
  induction left generalizing right with
  | nil =>
      cases right with
      | nil => rfl
      | cons second rights =>
          rw [encode_cons] at same
          exact absurd same.symm (List.append_ne_nil_of_left_ne_nil (units_ne_nil second) _)
  | cons first lefts induction =>
      cases right with
      | nil =>
          rw [encode_cons] at same
          exact absurd same (List.append_ne_nil_of_left_ne_nil (units_ne_nil first) _)
      | cons second rights =>
          rw [encode_cons, encode_cons] at same
          have ⟨sameFirst, sameRest⟩ := units_append_inj same
          rw [sameFirst, induction sameRest]

/-- Texts of which neither comes after the other are the same. -/
theorem notAfter_antisymm {left right : String} (inOrder : notAfter left right = true)
    (reversed : notAfter right left = true) : left = right :=
  String.toList_injective (encode_injective (unitsNotAfter_antisymm inOrder reversed))

/-! Characters up to U+FFFF are one unit, their own code point. -/

def IsBasic (text : String) : Prop :=
  ∀ character ∈ text.toList, character.toNat < 0x10000

instance (text : String) : Decidable (IsBasic text) :=
  List.decidableBAll (fun character : Char => character.toNat < 0x10000) text.toList

theorem encode_of_basic {text : List Char}
    (basic : ∀ character ∈ text, character.toNat < 0x10000) :
    encode text = text.map Char.toNat := by
  induction text with
  | nil => rfl
  | cons first rest induction =>
      rw [List.forall_mem_cons] at basic
      have one : units first = [first.toNat] := if_pos basic.1
      rw [encode_cons, induction basic.2, one, List.map_cons, List.singleton_append]

theorem notAfter_iff_le {left right : String} (leftBasic : IsBasic left)
    (rightBasic : IsBasic right) : notAfter left right = true ↔ left ≤ right := by
  have byCodePoint : ∀ lefts rights : List Char,
      unitsNotAfter (lefts.map Char.toNat) (rights.map Char.toNat) = true ↔ ¬rights < lefts := by
    intro lefts
    induction lefts with
    | nil => exact fun rights => iff_of_true rfl (List.not_lt_nil rights)
    | cons first lefts induction =>
        intro rights
        cases rights with
        | nil =>
            have below := List.nil_lt_cons first lefts
            exact iff_of_false Bool.false_ne_true (not_not_intro below)
        | cons second rights =>
            have order : second < first ↔ second.toNat < first.toNat := Iff.rfl
            rw [List.map_cons, List.map_cons, unitsNotAfter_cons_cons, induction,
              List.cons_lt_cons_iff, order, ← Char.toNat_inj]
            by_cases below : rights < lefts <;>
              simp only [below, not_true, not_false_eq_true, and_true, and_false, or_false] <;>
              omega
  rw [notAfter, encode_of_basic leftBasic, encode_of_basic rightBasic, byCodePoint]
  rfl

end MetricWatch.Utf16
