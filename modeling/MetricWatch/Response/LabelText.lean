import MetricWatch.Json.Value

namespace MetricWatch.Response

/-! The text of a label whose value is not a text. Whole numbers are written
without a fraction, as long as they are below 10^21; the items of an array are
joined by commas, `null` among them standing for nothing; and an object does not
show its members. -/

def writesWhole (magnitude : Magnitude) : Bool :=
  !magnitude.isInfinite && magnitude.isWhole && magnitude.wholePart < Nat.pow 10 21

def numberText : Json.Number → String
  | .real (.number negative magnitude) =>
      if writesWhole magnitude then
        (if negative then "-" else "") ++ decimalText magnitude.wholePart
      else (Json.Number.real (.number negative magnitude)).write
  | number => number.write

mutual
def labelText : Json.Value → String
  | .null => "null"
  | .bool true => "true"
  | .bool false => "false"
  | .number number => numberText number
  | .text text => text
  | .array items => ",".intercalate (itemTexts items)
  | .object _ => "[object Object]"

def itemTexts : List Json.Value → List String
  | [] => []
  | .null :: items => "" :: itemTexts items
  | item :: items => labelText item :: itemTexts items
end

end MetricWatch.Response
