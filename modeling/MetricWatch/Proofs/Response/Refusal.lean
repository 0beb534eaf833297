import MetricWatch.Proofs.Json.Writing
import MetricWatch.Proofs.Response.Acceptance

namespace MetricWatch.Response

open Json

/-! The backend's words for why it refused a query. The whole envelope is decoded before its
status is looked at, so they only come through if the other fields are of their types. What
stands in fields that nothing asks for does not matter. -/

/-- Data as the envelope of a refusal may hold them, whatever their result is. -/
def IsData (node : Node) : Prop :=
  ∃ fields, HasFields dataNames node fields ∧ NamesDiffer fields ∧
    (∀ kind, ("resultType", kind) ∈ fields →
      ∃ tree : SyntaxTree, kind = tree.node ∧ IsOptionalText tree) ∧
    ∀ result, ("result", result) ∈ fields →
      ∃ tree : SyntaxTree, result = tree.node ∧ tree.depth ≤ 125

/-- An envelope with a message for a status other than success. -/
structure Refuses (members : List (String × Node)) (message : String) : Prop where
  namesDiffer : NamesDiffer members
  status : ∃ status, ("status", (SyntaxTree.text status).node) ∈ members ∧ status ≠ "success"
  error : ("error", (SyntaxTree.text message).node) ∈ members
  errorType : ∀ node, ("errorType", node) ∈ members →
    ∃ tree : SyntaxTree, node = tree.node ∧ IsOptionalText tree
  data : ∀ node, ("data", node) ∈ members →
    node = (SyntaxTree.literal .null).node ∨ IsData node

theorem exists_fills {Content : Type} {read : NodeReader Content} {name : String}
    {fields : List (String × Node)} (differ : NamesDiffer fields)
    (isRead : ∀ node, (name, node) ∈ fields → ∃ content, read node = .ok content) :
    ∃ slot, Fills read none (named name fields) slot := by
  rcases named_of_namesDiffer differ name with nothing | ⟨node, member, single⟩
  · rw [nothing]
    exact ⟨none, rfl⟩
  · rcases isRead node member with ⟨content, isContent⟩
    rw [single]
    exact ⟨some content, fills_singleton.mpr ⟨content, isContent, rfl⟩⟩

theorem readOptional_of_read {Content : Type} {read : NodeReader Content} {tree : SyntaxTree}
    {content : Content} (isRead : read tree.node = .ok content) :
    ∃ content, readOptional read tree.node = .ok content := by
  by_cases isNull : tree = .literal .null
  · exact ⟨none, readOptional_eq_none.mpr isNull⟩
  · exact ⟨some content, readOptional_eq_some.mpr ⟨isNull, isRead⟩⟩

theorem IsData.read {node : Node} (isData : IsData node) (passed : node.skimFault? = none) :
    ∃ data, Data.reader.read node = .ok data := by
  rcases isData with ⟨fields, hasFields, differ, areKinds, areResults⟩
  have kinds : ∀ kind, ("resultType", kind) ∈ fields →
      ∃ content, Data.readResultType kind = .ok content := by
    intro kind member
    rcases areKinds kind member with ⟨tree, rfl, isText⟩
    exact isOptionalText_iff.mp isText
  have results : ∀ result, ("result", result) ∈ fields →
      ∃ content, Data.readResult result = .ok content := by
    intro result member
    rcases areResults result member with ⟨tree, rfl, fits⟩
    exact readOptional_of_read (readValue_node fits)
  rcases exists_fills differ kinds with ⟨kind, isKind⟩
  rcases exists_fills differ results with ⟨result, isResult⟩
  have foreign : PassesOver dataNames fields := by
    cases hasFields with
    | object => exact fun field member _ => Node.skimFault?_record.mp passed field member
    | array => exact passesOver_zip _ _
  exact ⟨_, (Data.read_iff_reads hasFields).mpr ⟨⟨kind, result, isKind, isResult, rfl⟩, foreign⟩⟩

theorem Refuses.readData {members : List (String × Node)} {message : String}
    (refuses : Refuses members message) (passed : (Node.record members).skimFault? = none)
    {node : Node} (member : ("data", node) ∈ members) :
    ∃ data, Envelope.readData node = .ok data := by
  rcases refuses.data node member with rfl | isData
  · exact ⟨none, readOptional_eq_none.mpr rfl⟩
  · rcases isData.read (Node.skimFault?_record.mp passed _ member) with ⟨data, isRead⟩
    rw [Envelope.readData, readOptional]
    cases isNull node with
    | true => exact ⟨none, rfl⟩
    | false => exact ⟨some data, by rw [isRead]; rfl⟩

theorem Refuses.read {members : List (String × Node)} {message : String}
    (refuses : Refuses members message) (passed : (Node.record members).skimFault? = none) :
    ∃ envelope, Envelope.reader.read (.record members) = .ok envelope ∧
      envelope.status ≠ "success" ∧ envelope.error = some (.text message) := by
  rcases refuses.status with ⟨status, isStatus, failed⟩
  have differ := refuses.namesDiffer
  have statusRead : Fills readText none (named "status" members) (some status) := by
    rw [named_of_mem differ isStatus]
    exact fills_singleton.mpr ⟨status, readText_node.mpr rfl, rfl⟩
  have errorRead : Fills Envelope.readError none (named "error" members)
      (some (some (.text message))) := by
    rw [named_of_mem differ refuses.error]
    exact fills_singleton.mpr ⟨_, rfl, rfl⟩
  have errorTypes : ∀ node, ("errorType", node) ∈ members →
      ∃ content, Envelope.readErrorType node = .ok content := by
    intro node member
    rcases refuses.errorType node member with ⟨tree, rfl, isText⟩
    exact isOptionalText_iff.mp isText
  rcases exists_fills differ errorTypes with ⟨errorType, isErrorType⟩
  rcases exists_fills differ fun _ => refuses.readData passed with ⟨data, isData⟩
  have foreign : PassesOver envelopeNames members :=
    fun field member _ => Node.skimFault?_record.mp passed field member
  have isRead := (Envelope.read_iff_reads (.object members)).mpr
    ⟨⟨_, _, errorType, data, statusRead, errorRead, isErrorType, isData, rfl⟩, foreign⟩
  exact ⟨_, isRead, failed, rfl⟩

/-- A refusal is passed on with the backend's message. -/
theorem parse_eq_refused {body : List UInt8} {members : List (String × Node)} {message : String}
    (carries : Grammar.Carries (.record members) body) (refuses : Refuses members message) :
    parse body = .error (.refused message) := by
  rcases refuses.read carries.skimFault? with ⟨envelope, isRead, failed, isError⟩
  have decoded : Envelope.ofDocument ⟨.record members, true⟩ = .ok envelope := by
    rw [Envelope.ofDocument, isRead]
    rfl
  rw [parse, decode, carries.ofBytes, decoded]
  change envelope.verdict >>= _ = _
  rw [Envelope.verdict, if_neg failed, Envelope.refusal, isError]
  rfl

/-! A refusal with half a pair of surrogates in a field that nothing asks for. -/

def warnedRefusal : List (String × Node) :=
  [("status", (SyntaxTree.text "error").node), ("error", (SyntaxTree.text "boom").node),
    ("data", (SyntaxTree.literal .null).node),
    ("warnings", .text ⟨Grammar.contentOf "\\ud800".toList, none⟩)]

def warnedRefusalText : String :=
  "\x7b\"status\":\"error\",\"error\":\"boom\",\"data\":null,\"warnings\":\"\\ud800\"\x7d"

theorem warnedRefusal_carries :
    Grammar.Carries (.record warnedRefusal) (Utf8.encode warnedRefusalText.toList) := by
  have blanks := Grammar.noBlanks
  have quoted := fun content => Grammar.Quotes.content (Grammar.quotation_write content)
  have status := Grammar.OutlinesMember.of (quoted "status") blanks blanks (.text (quoted "error"))
  have error := Grammar.OutlinesMember.of (quoted "error") blanks blanks (.text (quoted "boom"))
  have data := Grammar.OutlinesMember.of (quoted "data") blanks blanks (.literal (.atom .null))
  have warnings := Grammar.OutlinesMember.of (quoted "warnings") blanks blanks
    (.text (.marks Grammar.marks_half))
  have envelope := Grammar.Outlines.object blanks status (.comma blanks blanks error
    (.comma blanks blanks data (.comma blanks blanks warnings (.close blanks))))
  exact .of blanks envelope blanks

theorem warnedRefusal_refuses : Refuses warnedRefusal "boom" := by
  constructor
  case namesDiffer => simp [NamesDiffer, warnedRefusal]
  case status => exact ⟨"error", by simp [warnedRefusal], by decide⟩
  case error => simp [warnedRefusal]
  case errorType =>
    intro node member
    simp [warnedRefusal] at member
  case data =>
    intro node member
    exact .inl (by simpa [warnedRefusal] using member)

theorem parse_warnedRefusal :
    Grammar.Carries (.record warnedRefusal) (Utf8.encode warnedRefusalText.toList) ∧
      Refuses warnedRefusal "boom" ∧
      parse (Utf8.encode warnedRefusalText.toList) = .error (.refused "boom") :=
  ⟨warnedRefusal_carries, warnedRefusal_refuses,
    parse_eq_refused warnedRefusal_carries warnedRefusal_refuses⟩

/-! What the other fields hold does matter: the type of an error that is a number hides the
error. -/

/-- The backend's words come through whatever stands beside them. -/
def AlwaysSurfaces : Prop :=
  ∀ (body : List UInt8) (members : List (String × Node)) (status message : String),
    Grammar.Carries (.record members) body → NamesDiffer members →
      ("status", (SyntaxTree.text status).node) ∈ members → status ≠ "success" →
        ("error", (SyntaxTree.text message).node) ∈ members →
          parse body = .error (.refused message)

def numberedRefusal : Value :=
  .object [("status", .text "error"), ("error", .text "boom"), ("errorType", .number (.whole 5))]

theorem not_alwaysSurfaces : ¬ AlwaysSurfaces := by
  intro surfaces
  have isWhole : numberedRefusal.IsWhole := by
    apply Value.IsWhole.object
    simp only [List.forall_mem_cons]
    exact ⟨.text "error", .text "boom", .number (by decide) (by decide), nofun⟩
  have carries := (Grammar.encodes_write isWhole).carries
  have refused := surfaces _ (nodesOf [("status", .text "error"), ("error", .text "boom"),
    ("errorType", .literal (.number (.whole 5)))]) "error" "boom" carries
    (by simp [NamesDiffer, nodesOf]) (by simp [nodesOf]) (by decide) (by simp [nodesOf])
  have malformed : parse (Utf8.encode numberedRefusal.write) =
      .error (.malformed (.wrongType (.number (.whole 5)) .text)) := by
    rw [parse, decode, carries.ofBytes]
    rfl
  rw [malformed] at refused
  cases refused

end MetricWatch.Response
