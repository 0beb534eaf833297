import MetricWatch.Proofs.Json.Canonical
import MetricWatch.Proofs.Json.Opening
import MetricWatch.Proofs.Response.Rewriting

namespace MetricWatch.Response

open Json

/-! A backend may give its error as an array, an object, a number or a truth value. The message
of the refusal is the canonical text of it, so that nothing of the error is lost, and nothing of
the way in which it was written is left. -/

/-- Where the error of an envelope stands, as a member of an object or as the second item of an
array. -/
inductive IsErrorPlace : (Node → Node) → Prop
  | member (before after : List (String × Node)) :
      IsErrorPlace fun error => .record (before ++ ("error", error) :: after)
  | item (status : Node) {others : List Node} : others.length ≤ 2 →
      IsErrorPlace fun error => .array (status :: error :: others) .closed

namespace IsErrorPlace

variable {place : Node → Node} {error other : Node}

theorem exists_fields (isPlace : IsErrorPlace place) :
    ∃ before after, ∀ error,
      HasFields envelopeNames (place error) (before ++ ("error", error) :: after) := by
  cases isPlace with
  | member before after => exact ⟨before, after, fun _ => .object _⟩
  | item status fit =>
      exact ⟨[("status", status)], _, fun _ => .array (Nat.add_le_add_right fit 2)⟩

theorem encloses (isPlace : IsErrorPlace place) {text : List Char}
    (outlines : Grammar.Outlines (place error) text) :
    Grammar.Encloses (fun node => Grammar.Outlines (place node)) error text := by
  cases isPlace with
  | member before after =>
      have isObject (node : Node) : Node.record (before ++ ("error", node) :: after) =
          .object (Node.keyed before ++ (SyntaxTree.faultless "error", node) :: Node.keyed after)
            .closed := by
        rw [Node.record, Node.keyed, List.map_append, List.map_cons]
        rfl
      simp only [isObject] at outlines ⊢
      exact outlines.encloses_member
  | @item status others _ =>
      exact @Grammar.Outlines.encloses_item error text [status] others outlines

/-! The fields beside the error are read whatever the error is. -/

theorem named_error {before after : List (String × Node)} :
    named "error" (before ++ ("error", error) :: after) =
      named "error" before ++ error :: named "error" after := by
  rw [named_append, named_cons_self]

theorem named_beside {before after : List (String × Node)} {name : String}
    (different : "error" ≠ name) :
    named name (before ++ ("error", error) :: after) = named name (before ++ after) := by
  rw [named_append, named_append, named_cons_of_ne different]

theorem passesOver_beside {before after : List (String × Node)} :
    PassesOver envelopeNames (before ++ ("error", error) :: after) ↔
      PassesOver envelopeNames (before ++ after) := by
  have isName : "error" ∈ envelopeNames := by decide
  simp only [PassesOver, List.forall_mem_append, List.forall_mem_cons]
  apply and_congr_right'
  exact ⟨And.right, fun passes => ⟨fun notName => absurd isName notName, passes⟩⟩

theorem error_of_read (isPlace : IsErrorPlace place) {envelope : Envelope}
    (isRead : Envelope.reader.read (place error) = .ok envelope) :
    Envelope.readError error = .ok envelope.error := by
  obtain ⟨before, after, hasFields⟩ := isPlace.exists_fields
  obtain ⟨⟨_, slot, _, _, _, isError, _, _, rfl⟩, _⟩ :=
    (Envelope.read_iff_reads (hasFields error)).mp isRead
  rw [named_error, fills_append_cons] at isError
  obtain ⟨_, content, isContent, rfl⟩ := isError
  exact isContent

theorem read_of_same (isPlace : IsErrorPlace place) {envelope : Envelope}
    (isRead : Envelope.reader.read (place error) = .ok envelope)
    (same : Envelope.readError other = Envelope.readError error) :
    Envelope.reader.read (place other) = .ok envelope := by
  obtain ⟨before, after, hasFields⟩ := isPlace.exists_fields
  obtain ⟨⟨status, slot, errorType, data, isStatus, isError, isErrorType, isData, rfl⟩, passes⟩ :=
    (Envelope.read_iff_reads (hasFields error)).mp isRead
  apply (Envelope.read_iff_reads (hasFields other)).mpr
  refine ⟨⟨status, slot, errorType, data, ?_, ?_, ?_, ?_, rfl⟩, ?_⟩
  · rw [named_beside (by decide)] at isStatus ⊢
    exact isStatus
  · rw [named_error, fills_append_cons] at isError ⊢
    rw [same]
    exact isError
  · rw [named_beside (by decide)] at isErrorType ⊢
    exact isErrorType
  · rw [named_beside (by decide)] at isData ⊢
    exact isData
  · exact passesOver_beside.mpr (passesOver_beside.mp passes)

end IsErrorPlace

/-! What is read of an error, and of anything that it can be rearranged to. -/

theorem error_eq_of_read {error : SyntaxTree} (notNull : error ≠ .literal .null)
    {content : Option Value} (isRead : Envelope.readError error.node = .ok content) :
    content = some error.value ∧ error.depth ≤ depthInEnvelope := by
  cases content with
  | none => exact absurd (readOptional_eq_none.mp isRead) notNull
  | some value =>
      have isValue : readValue depthInEnvelope error.node = .ok value :=
        (readOptional_eq_some.mp isRead).2
      rw [readValue, inDocument, mapError_eq_ok_iff] at isValue
      obtain ⟨fits, same⟩ := SyntaxTree.toValue_node_iff.mp isValue
      exact ⟨congrArg some same.symm, fits⟩

theorem readError_of_rearrangesTo {before after : Node} (rearranges : before.RearrangesTo after)
    {content : Option Value} (isRead : Envelope.readError before = .ok content) :
    Envelope.readError after = .ok content := by
  induction rearranges with
  | refl => exact isRead
  | tail _ last induction => exact readOptionalValue_of_rearranges last induction

theorem refusal_of_error {envelope : Envelope} {error : SyntaxTree}
    (notText : ∀ content, error ≠ .text content) (isError : envelope.error = some error.value) :
    envelope.refusal = error.value.toText := by
  rw [Envelope.refusal, isError]
  cases error with
  | text content => exact absurd rfl (notText content)
  | literal atom => cases atom <;> rfl
  | array items => rfl
  | object members => rfl

theorem parse_of_read {node : Node} {body : List UInt8} (carries : Grammar.Carries node body)
    {envelope : Envelope} (isRead : Envelope.reader.read node = .ok envelope)
    (failed : envelope.status ≠ "success") :
    parse body = .error (.refused envelope.refusal) := by
  have isDecoded : Envelope.ofDocument ⟨node, true⟩ = .ok envelope := by
    rw [Envelope.ofDocument, isRead]
    rfl
  have isVerdict : envelope.verdict = .ok (.refused envelope.refusal) := by
    rw [Envelope.verdict, if_neg failed]
    rfl
  rw [parse, decode, carries.ofBytes, isDecoded]
  change envelope.verdict >>= _ = _
  rw [isVerdict]
  rfl

theorem parse_of_rearrangesTo {place : Node → Node} (isPlace : IsErrorPlace place)
    {error : SyntaxTree} (notNull : error ≠ .literal .null)
    (notText : ∀ content, error ≠ .text content) {envelope : Envelope}
    (isRead : Envelope.reader.read (place error.node) = .ok envelope)
    (failed : envelope.status ≠ "success") {other : Node}
    (rearranges : error.node.RearrangesTo other) {body : List UInt8}
    (carries : Grammar.Carries (place other) body) :
    parse body = .error (.refused error.value.toText) := by
  have errorRead := isPlace.error_of_read isRead
  have sameError := (readError_of_rearrangesTo rearranges errorRead).trans errorRead.symm
  have isError := (error_eq_of_read notNull errorRead).1
  rw [← refusal_of_error notText isError]
  exact parse_of_read carries (isPlace.read_of_same isRead sameError) failed

/-- The message of a refusal, against the error that stands in the body for it: the message is a
document that is read as the same value, it does not depend on how the error was written, and it
can itself be written in the place of the error. -/
structure KeepsError (place : Node → Node) (error : SyntaxTree) (body : List UInt8)
    (message : String) : Prop where
  refused : parse body = .error (.refused message)
  readBack : ∃ tree : SyntaxTree, Grammar.Encodes tree (Utf8.encode message.toList) ∧
    Document.ofBytes (Utf8.encode message.toList) = ⟨tree.node, true⟩ ∧
    tree.node.toValue nestingLimit = .ok error.value ∧ error.node.RearrangesTo tree.node
  anyWriting : ∀ (other : Node) (otherBody : List UInt8), error.node.RearrangesTo other →
    Grammar.Carries (place other) otherBody → parse otherBody = .error (.refused message)
  putBack : ∃ front text back, body = Utf8.encode (front ++ (text ++ back)) ∧
    Grammar.Outlines error.node text ∧
    (∀ node written, Grammar.Outlines node written →
      Grammar.Carries (place node) (Utf8.encode (front ++ (written ++ back)))) ∧
    parse (Utf8.encode (front ++ (message.toList ++ back))) = .error (.refused message)

/-- An error that is no text is carried without loss: the message is its canonical text. -/
theorem parse_keepsError {place : Node → Node} (isPlace : IsErrorPlace place) {error : SyntaxTree}
    (isExact : error.IsExact) (notNull : error ≠ .literal .null)
    (notText : ∀ content, error ≠ .text content) {body : List UInt8}
    (carries : Grammar.Carries (place error.node) body) {envelope : Envelope}
    (decoded : Envelope.ofDocument (.ofBytes body) = .ok envelope)
    (failed : envelope.status ≠ "success") :
    KeepsError place error body error.value.toText := by
  have isRead : Envelope.reader.read (place error.node) = .ok envelope := by
    rw [carries.ofBytes, Envelope.ofDocument, bind_eq_ok_iff] at decoded
    obtain ⟨_, isRead, same⟩ := decoded
    cases same
    exact isRead
  have errorRead := isPlace.error_of_read isRead
  have fits := (error_eq_of_read notNull errorRead).2
  have written : error.value.toText.toList = error.value.write := String.toList_ofList
  have encodes := Grammar.encodes_write isExact.isWhole_value
  have anyWriting : ∀ (other : Node) (otherBody : List UInt8), error.node.RearrangesTo other →
      Grammar.Carries (place other) otherBody →
        parse otherBody = .error (.refused error.value.toText) := by
    intro other otherBody rearranges otherCarries
    exact parse_of_rearrangesTo isPlace notNull notText isRead failed rearranges otherCarries
  refine ⟨anyWriting _ _ .refl carries, ?_, anyWriting, ?_⟩
  · have deepEnough : error.depth ≤ nestingLimit := Nat.le_trans fits (by decide)
    rw [written]
    exact ⟨error.canonical, encodes, encodes.ofBytes,
      isExact.rearrangesTo_canonical.toValue (error.toValue_node deepEnough),
      isExact.rearrangesTo_canonical⟩
  · obtain ⟨_, rfl, front, text, back, rfl, outlines, isOpening⟩ :=
      carries.encloses fun _ => isPlace.encloses
    have canonicalText : Grammar.Outlines error.canonical.node error.value.write :=
      (Grammar.spells_write error.value isExact.isWhole_value).outlines
    refine ⟨front, text, back, rfl, outlines, isOpening, ?_⟩
    rw [written]
    exact anyWriting _ _ isExact.rearrangesTo_canonical (isOpening _ _ canonicalText)

/-! An object as the error, with its members the other way round and an escape in one of them. -/

def limitError : SyntaxTree :=
  .object [("limit", .array [.literal (.number (.whole 7))]), ("code", .text "x")]

def limitRefusal (error : Node) : Node :=
  .record [("status", (SyntaxTree.text "error").node), ("error", error)]

def limitRefusalText : String :=
  "\x7b\"status\":\"error\",\"error\":\x7b\"limit\":[7], \"code\":\"\\u0078\"\x7d\x7d"

theorem limitRefusal_carries :
    Grammar.Carries (limitRefusal limitError.node) (Utf8.encode limitRefusalText.toList) := by
  have blanks := Grammar.noBlanks
  have space : Grammar.Blanks [' '] := by simp [Grammar.Blanks, Token.isBlank]
  have quoted := fun content => Grammar.Quotes.content (Grammar.quotation_write content)
  have numeral : Grammar.Numeral ⟨false, ['7'], none, none⟩ ['7'] :=
    .of (.digits (by decide) (by simp [Grammar.Digits, isDecimalDigit])) .absent .absent
  have reads : Json.Spelling.Reads ⟨false, ['7'], none, none⟩ (.whole 7) :=
    .whole (.natural rfl rfl rfl (by decide))
  have seven := Grammar.Outlines.literal (.atom (.number numeral reads))
  have limit := Grammar.OutlinesMember.of (quoted "limit") blanks blanks
    (.array blanks seven (.close blanks))
  have letter : Grammar.Quotation "x" "\"\\u0078\"".toList := .of (.cons (.unit rfl rfl rfl) .nil)
  have code := Grammar.OutlinesMember.of (quoted "code") blanks blanks (.text (.content letter))
  have status := Grammar.OutlinesMember.of (quoted "status") blanks blanks (.text (quoted "error"))
  have error := Grammar.OutlinesMember.of (quoted "error") blanks blanks
    (.object blanks limit (.comma blanks space code (.close blanks)))
  exact .of blanks (.object blanks status (.comma blanks blanks error (.close blanks))) blanks

theorem limitError_isExact : limitError.IsExact := by
  apply SyntaxTree.IsExact.object
  · exact .pair (by decide) _ _
  · simp only [List.forall_mem_cons]
    exact ⟨.array (List.forall_mem_singleton.mpr (.whole (by decide) (by decide))), .text "x",
      List.forall_mem_nil _⟩

theorem parse_keepsError_limit :
    KeepsError limitRefusal limitError (Utf8.encode limitRefusalText.toList)
      "\x7b\"code\":\"x\",\"limit\":[7]\x7d" := by
  have isPlace : IsErrorPlace limitRefusal :=
    .member [("status", (SyntaxTree.text "error").node)] []
  have decoded : Envelope.ofDocument (.ofBytes (Utf8.encode limitRefusalText.toList)) =
      .ok ⟨"error", some limitError.value, none, none⟩ := by
    rw [limitRefusal_carries.ofBytes]
    rfl
  have keeps := parse_keepsError isPlace limitError_isExact nofun nofun limitRefusal_carries
    decoded (by decide)
  have isMessage : limitError.value.toText = "\x7b\"code\":\"x\",\"limit\":[7]\x7d" := by
    decide +kernel
  rwa [isMessage] at keeps

end MetricWatch.Response
