import MetricWatch.Json.Value
import MetricWatch.Text.ShownQuoted

namespace MetricWatch.Response

/-! Why a document is no response: a fault in its text, or content of another
shape than a response has. -/

inductive Found where
  | null
  | bool (value : Bool)
  | number (value : Json.Number)
  | text (value : String)
  | sequence
  | map

inductive Expected where
  | text
  | number
  | sequence
  | map
  | pair
  | envelope
  | data
  | item
  | envelopeFields
  | itemFields
  | fewerItems

inductive Defect where
  | document (fault : Json.Fault)
  | missingField (name : String)
  | duplicateField (name : String)
  | wrongType (found : Found) (expected : Expected)
  | wrongLength (length : Nat) (expected : Expected)

namespace Found

def ofLiteral : Json.Literal → Found
  | .null => .null
  | .bool value => .bool value
  | .number value => .number value

def ofValue : Json.Value → Found
  | .null => .null
  | .bool value => .bool value
  | .number value => .number value
  | .text value => .text value
  | .array _ => .sequence
  | .object _ => .map

def description : Found → String
  | .null => "null"
  | .bool true => "boolean `true`"
  | .bool false => "boolean `false`"
  | .number (.whole value) => "integer `" ++ integerText value ++ "`"
  | .number (.real value) => "floating point `" ++ (Json.Number.real value).write ++ "`"
  | .text value => "string " ++ shownQuoted value
  | .sequence => "sequence"
  | .map => "map"

end Found

def Expected.description : Expected → String
  | .text => "a string"
  | .number => "f64"
  | .sequence => "a sequence"
  | .map => "a map"
  | .pair => "a tuple of size 2"
  | .envelope => "struct RawEnvelope"
  | .data => "struct RawData"
  | .item => "struct RawResultItem"
  | .envelopeFields => "struct RawEnvelope with 4 elements"
  | .itemFields => "struct RawResultItem with 2 elements"
  | .fewerItems => "fewer elements in array"

def Defect.message : Defect → String
  | .document fault => fault.message
  | .missingField name => "missing field `" ++ name ++ "`"
  | .duplicateField name => "duplicate field `" ++ name ++ "`"
  | .wrongType found expected =>
      "invalid type: " ++ found.description ++ ", expected " ++ expected.description
  | .wrongLength length expected =>
      "invalid length " ++ decimalText length ++ ", expected " ++ expected.description

end MetricWatch.Response
