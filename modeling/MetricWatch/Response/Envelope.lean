import MetricWatch.Response.Defect

namespace MetricWatch.Response

/-! The envelope of a response and the data in it. Both may be written as an
object or as an array of their fields in the order of the structures here. A
field that may be missing may also be `null`, and unknown fields are passed over.
The envelope is read from the tree of the document, because the first defect in
the text counts, whatever its kind. -/

/-- The data of a response. -/
structure Data where
  resultType : Option String
  result : Option Json.Value

/-- The whole of a response. -/
structure Envelope where
  status : String
  error : Option Json.Value
  errorType : Option String
  data : Option Data

/-! The envelope is itself the outermost of the nested arrays and objects. -/

def nestingLimit : Nat := 127

def depthInEnvelope : Nat := nestingLimit - 1

def depthInData : Nat := nestingLimit - 2

def inDocument (outcome : Except Json.Fault Content) : Except Defect Content :=
  outcome.mapError .document

/-! Readers of a single node. -/

abbrev NodeReader (Content : Type) := Json.Node → Except Defect Content

def wrongLiteral (expected : Expected) (literal : Json.Literal) : Except Defect Content :=
  .error (.wrongType (.ofLiteral literal) expected)

def readText : NodeReader String
  | .text lexeme => inDocument lexeme.strict
  | .literal lexeme => inDocument lexeme.strict >>= wrongLiteral .text
  | .absent fault => .error (.document fault)
  | .array _ _ => .error (.wrongType .sequence .text)
  | .object _ _ => .error (.wrongType .map .text)

def readValue (depth : Nat) : NodeReader Json.Value :=
  fun node => inDocument (node.toValue depth)

def isNull : Json.Node → Bool
  | .literal ⟨.ok .null, _⟩ => true
  | _ => false

def readOptional (read : NodeReader Content) : NodeReader (Option Content) :=
  fun node => if isNull node then .ok none else (read node).map some

/-- A reader of what is written as an object or as an array of its fields. -/
structure FieldReader (Content : Type) where
  expected : Expected
  ofMembers : List (Json.Lexeme String × Json.Node) → Json.Ending → Except Defect Content
  ofItems : List Json.Node → Json.Ending → Except Defect Content

def FieldReader.read (reader : FieldReader Content) : NodeReader Content
  | .object members ending => reader.ofMembers members ending
  | .array items ending => reader.ofItems items ending
  | .text lexeme => do
      let text ← inDocument lexeme.strict
      .error (.wrongType (.text text) reader.expected)
  | .literal lexeme => inDocument lexeme.strict >>= wrongLiteral reader.expected
  | .absent fault => .error (.document fault)

/-- A field of an object is read once; a second one with its name is a defect
before its value is looked at. -/
def readOnce (name : String) (read : NodeReader Content) (earlier : Option Content) :
    NodeReader (Option Content) :=
  fun node =>
    if earlier.isSome then .error (.duplicateField name) else (read node).map some

def passOver (node : Json.Node) : Except Defect Unit :=
  inDocument (Json.Fault.check node.skimFault?)

def foldMembers (step : Fields → String → Json.Node → Except Defect Fields) (fields : Fields)
    (members : List (Json.Lexeme String × Json.Node)) (ending : Json.Ending) :
    Except Defect Fields :=
  match members with
  | [] => do
      inDocument (Json.Fault.check ending.memberFault?)
      return fields
  | (key, node) :: members => do
      let name ← inDocument key.strict
      let fields ← step fields name node
      foldMembers step fields members ending

/-- The next field of an array, if there is one. -/
def nextItem (read : NodeReader Content) (items : List Json.Node) (ending : Json.Ending) :
    Except Defect (Option Content × List Json.Node) :=
  match items with
  | [] => do
      inDocument (Json.Fault.check ending.itemFault?)
      return (none, [])
  | item :: items => do
      let content ← read item
      return (some content, items)

def noFurtherItems (items : List Json.Node) (ending : Json.Ending) : Except Defect Unit :=
  inDocument (Json.Fault.check (ending.surplusFault? items))

namespace Data

structure Fields where
  resultType : Option (Option String)
  result : Option (Option Json.Value)

def readResultType : NodeReader (Option String) := readOptional readText

def readResult : NodeReader (Option Json.Value) := readOptional (readValue depthInData)

def readMember (fields : Fields) (name : String) (node : Json.Node) : Except Defect Fields :=
  match name with
  | "resultType" => do
      let resultType ← readOnce name readResultType fields.resultType node
      return { fields with resultType }
  | "result" => do
      let result ← readOnce name readResult fields.result node
      return { fields with result }
  | _ => do
      passOver node
      return fields

def ofMembers (members : List (Json.Lexeme String × Json.Node)) (ending : Json.Ending) :
    Except Defect Data := do
  let fields ← foldMembers readMember ⟨none, none⟩ members ending
  return ⟨fields.resultType.join, fields.result.join⟩

def ofItems (items : List Json.Node) (ending : Json.Ending) : Except Defect Data := do
  let (resultType, items) ← nextItem readResultType items ending
  let (result, items) ← nextItem readResult items ending
  noFurtherItems items ending
  return ⟨resultType.join, result.join⟩

def reader : FieldReader Data := ⟨.data, ofMembers, ofItems⟩

end Data

namespace Envelope

structure Fields where
  status : Option String
  error : Option (Option Json.Value)
  errorType : Option (Option String)
  data : Option (Option Data)

def readError : NodeReader (Option Json.Value) := readOptional (readValue depthInEnvelope)

def readErrorType : NodeReader (Option String) := readOptional readText

def readData : NodeReader (Option Data) := readOptional Data.reader.read

def readMember (fields : Fields) (name : String) (node : Json.Node) : Except Defect Fields :=
  match name with
  | "status" => do
      let status ← readOnce name readText fields.status node
      return { fields with status }
  | "error" => do
      let error ← readOnce name readError fields.error node
      return { fields with error }
  | "errorType" => do
      let errorType ← readOnce name readErrorType fields.errorType node
      return { fields with errorType }
  | "data" => do
      let data ← readOnce name readData fields.data node
      return { fields with data }
  | _ => do
      passOver node
      return fields

def ofMembers (members : List (Json.Lexeme String × Json.Node)) (ending : Json.Ending) :
    Except Defect Envelope := do
  let fields ← foldMembers readMember ⟨none, none, none, none⟩ members ending
  match fields.status with
  | none => .error (.missingField "status")
  | some status => .ok ⟨status, fields.error.join, fields.errorType.join, fields.data.join⟩

def ofItems (items : List Json.Node) (ending : Json.Ending) : Except Defect Envelope := do
  let (status?, items) ← nextItem readText items ending
  match status? with
  | none => .error (.wrongLength 0 .envelopeFields)
  | some status =>
      let (error, items) ← nextItem readError items ending
      let (errorType, items) ← nextItem readErrorType items ending
      let (data, items) ← nextItem readData items ending
      noFurtherItems items ending
      return ⟨status, error.join, errorType.join, data.join⟩

def reader : FieldReader Envelope := ⟨.envelope, ofMembers, ofItems⟩

/-- The envelope that a document holds, or the first defect in its text. -/
def ofDocument (document : Json.Document) : Except Defect Envelope := do
  let envelope ← reader.read document.root
  if document.isLast then return envelope
  else .error (.document .trailingCharacters)

end Envelope

end MetricWatch.Response
