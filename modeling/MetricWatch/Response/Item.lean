import MetricWatch.Response.Defect

namespace MetricWatch.Response

/-- One series of the result: its labels, the time of its sample in seconds and
the value of its sample. An item is read from a value, so the order of its
members and repeated keys no longer matter. -/
structure Item where
  metric : Entries Json.Value
  seconds : Binary64
  value : Json.Value

namespace Item

def wrongValue (expected : Expected) (value : Json.Value) : Except Defect Content :=
  .error (.wrongType (.ofValue value) expected)

def readMetric : Json.Value → Except Defect (Entries Json.Value)
  | .object members => .ok members
  | value => wrongValue .map value

def readSeconds : Json.Value → Except Defect Binary64
  | .number number => .ok number.toBinary64
  | value => wrongValue .number value

def readPair : Json.Value → Except Defect (Binary64 × Json.Value)
  | .array [] => .error (.wrongLength 0 .pair)
  | .array (first :: rest) => do
      let seconds ← readSeconds first
      match rest with
      | [] => .error (.wrongLength 1 .pair)
      | [value] => .ok (seconds, value)
      | _ => .error (.wrongLength (rest.length + 1) .fewerItems)
  | value => wrongValue .pair value

def ofMembers (members : Entries Json.Value) : Except Defect Item := do
  let metric ←
    match members.find? "metric" with
    | some metric => readMetric metric
    | none => .ok []
  match members.find? "value" with
  | some pair =>
      let (seconds, value) ← readPair pair
      return ⟨metric, seconds, value⟩
  | none => .error (.missingField "value")

def ofItems : List Json.Value → Except Defect Item
  | [] => .error (.wrongLength 1 .itemFields)
  | first :: rest => do
      let metric ← readMetric first
      match rest with
      | [] => .error (.wrongLength 1 .itemFields)
      | pair :: surplus =>
          let (seconds, value) ← readPair pair
          if surplus.isEmpty then return ⟨metric, seconds, value⟩
          else .error (.wrongLength (surplus.length + 2) .fewerItems)

/-- The item that a value stands for. -/
def ofValue : Json.Value → Except Defect Item
  | .object members => ofMembers members
  | .array items => ofItems items
  | value => wrongValue .item value

/-- The result is a list of items; the first defective one counts. -/
def listOfValue : Json.Value → Except Defect (List Item)
  | .array values => values.mapM ofValue
  | value => wrongValue .sequence value

end Item

end MetricWatch.Response
