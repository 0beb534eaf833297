import MetricWatch.Proofs.Json.Outline

namespace MetricWatch.Json.Grammar

/-! What is in an array or an object is written somewhere in the text of it, and anything else
can be written there instead. -/

/-- Between two texts every node can be written, and something of it is written by all three. -/
def IsOpening (Written : Node → List Char → Prop) (front back : List Char) : Prop :=
  ∀ node text, Outlines node text → Written node (front ++ (text ++ back))

/-- A node is written in an opening of a text. -/
def Encloses (Written : Node → List Char → Prop) (inner : Node) (text : List Char) : Prop :=
  ∃ front innerText back, text = front ++ (innerText ++ back) ∧ Outlines inner innerText ∧
    IsOpening Written front back

theorem encloses_self {inner : Node} {text : List Char} (outlines : Outlines inner text) :
    Encloses Outlines inner text := by
  refine ⟨[], text, [], (List.append_nil text).symm, outlines, ?_⟩
  intro node text outlines
  rwa [List.nil_append, List.append_nil]

/-- The opening of a part is one of the whole. -/
theorem Encloses.within {Written Wider : Node → List Char → Prop} {inner : Node}
    {text left right whole : List Char} (encloses : Encloses Written inner text)
    (isWhole : whole = left ++ (text ++ right))
    (widens : ∀ node text, Written node text → Wider node (left ++ (text ++ right))) :
    Encloses Wider inner whole := by
  obtain ⟨front, innerText, back, rfl, outlines, isOpening⟩ := encloses
  refine ⟨left ++ front, innerText, back ++ right, ?_, outlines, ?_⟩
  · rw [isWhole]
    simp only [List.append_assoc]
  · intro node text outlines
    have wider := widens node _ (isOpening node text outlines)
    simp only [List.append_assoc] at wider ⊢
    exact wider

section

variable {inner : Node} {text : List Char}

theorem OutlinesItems.encloses {after : List Node} : ∀ {before : List Node} {text : List Char},
    OutlinesItems (before ++ inner :: after) text →
      Encloses (fun node => OutlinesItems (before ++ node :: after)) inner text := by
  intro before
  induction before with
  | nil =>
      intro text outlines
      cases outlines with
      | @comma _ _ blank start text rest blanks startBlanks outlines further =>
          have isWhole : blank ++ ',' :: (start ++ (text ++ rest)) =
              (blank ++ ',' :: start) ++ (text ++ rest) := by
            simp
          refine (encloses_self outlines).within isWhole ?_
          intro node text outlines
          simpa using OutlinesItems.comma blanks startBlanks outlines further
  | cons first before induction =>
      intro text outlines
      cases outlines with
      | @comma _ _ blank start text rest blanks startBlanks outlines further =>
          have isWhole : blank ++ ',' :: (start ++ (text ++ rest)) =
              (blank ++ ',' :: (start ++ text)) ++ (rest ++ []) := by
            simp
          refine (induction further).within isWhole ?_
          intro node rest further
          simpa using OutlinesItems.comma blanks startBlanks outlines further

theorem OutlinesMember.encloses {key : Lexeme String} (member : OutlinesMember (key, inner) text) :
    Encloses (fun node => OutlinesMember (key, node)) inner text := by
  cases member with
  | @of _ _ name blank start text quotes blanks startBlanks outlines =>
      have isWhole : name ++ (blank ++ ':' :: (start ++ text)) =
          (name ++ (blank ++ ':' :: start)) ++ (text ++ []) := by
        simp
      refine (encloses_self outlines).within isWhole ?_
      intro node text outlines
      simpa using OutlinesMember.of quotes blanks startBlanks outlines

theorem OutlinesMembers.encloses {key : Lexeme String} {after : List (Lexeme String × Node)} :
    ∀ {before : List (Lexeme String × Node)} {text : List Char},
      OutlinesMembers (before ++ (key, inner) :: after) text →
        Encloses (fun node => OutlinesMembers (before ++ (key, node) :: after)) inner text := by
  intro before
  induction before with
  | nil =>
      intro text outlines
      cases outlines with
      | @comma _ _ blank start text rest blanks startBlanks member further =>
          have isWhole : blank ++ ',' :: (start ++ (text ++ rest)) =
              (blank ++ ',' :: start) ++ (text ++ rest) := by
            simp
          refine member.encloses.within isWhole ?_
          intro node text member
          simpa using OutlinesMembers.comma blanks startBlanks member further
  | cons first before induction =>
      intro text outlines
      cases outlines with
      | @comma _ _ blank start text rest blanks startBlanks member further =>
          have isWhole : blank ++ ',' :: (start ++ (text ++ rest)) =
              (blank ++ ',' :: (start ++ text)) ++ (rest ++ []) := by
            simp
          refine (induction further).within isWhole ?_
          intro node rest further
          simpa using OutlinesMembers.comma blanks startBlanks member further

theorem Outlines.encloses_item {before after : List Node}
    (outlines : Outlines (.array (before ++ inner :: after) .closed) text) :
    Encloses (fun node => Outlines (.array (before ++ node :: after) .closed)) inner text := by
  cases before with
  | nil =>
      cases outlines with
      | @array _ _ blank text rest blanks outlines further =>
          have isWhole : '[' :: (blank ++ (text ++ rest)) = ('[' :: blank) ++ (text ++ rest) := by
            simp
          refine (encloses_self outlines).within isWhole ?_
          intro node text outlines
          simpa using Outlines.array blanks outlines further
  | cons first before =>
      cases outlines with
      | @array _ _ blank text rest blanks outlines further =>
          have isWhole : '[' :: (blank ++ (text ++ rest)) =
              ('[' :: (blank ++ text)) ++ (rest ++ []) := by
            simp
          refine further.encloses.within isWhole ?_
          intro node rest further
          simpa using Outlines.array blanks outlines further

theorem Outlines.encloses_member {key : Lexeme String} {before after : List (Lexeme String × Node)}
    (outlines : Outlines (.object (before ++ (key, inner) :: after) .closed) text) :
    Encloses (fun node => Outlines (.object (before ++ (key, node) :: after) .closed)) inner
      text := by
  cases before with
  | nil =>
      cases outlines with
      | @object _ _ blank text rest blanks member further =>
          have isWhole : '{' :: (blank ++ (text ++ rest)) = ('{' :: blank) ++ (text ++ rest) := by
            simp
          refine member.encloses.within isWhole ?_
          intro node text member
          simpa using Outlines.object blanks member further
  | cons first before =>
      cases outlines with
      | @object _ _ blank text rest blanks member further =>
          have isWhole : '{' :: (blank ++ (text ++ rest)) =
              ('{' :: (blank ++ text)) ++ (rest ++ []) := by
            simp
          refine further.encloses.within isWhole ?_
          intro node rest further
          simpa using Outlines.object blanks member further

end

/-- The opening of a tree is one of its document. -/
theorem Carries.encloses {place : Node → Node} {inner : Node} {body : List UInt8}
    (carries : Carries (place inner) body)
    (isPlace : ∀ text, Outlines (place inner) text →
      Encloses (fun node => Outlines (place node)) inner text) :
    ∃ text, body = Utf8.encode text ∧
      Encloses (fun node text => Carries (place node) (Utf8.encode text)) inner text := by
  cases carries with
  | @of before text after blanks outlines afterBlanks =>
      refine ⟨_, rfl, (isPlace text outlines).within rfl ?_⟩
      intro node text outlines
      exact .of blanks outlines afterBlanks

end MetricWatch.Json.Grammar
