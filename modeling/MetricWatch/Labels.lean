import MetricWatch.Dictionary
import MetricWatch.Text.Utf16

namespace MetricWatch

/-- The labels of a time series: values by name. -/
structure Labels where
  entries : Entries String
  ascending : entries.Ascending

namespace Labels

/-- Of labels with the same name the last one counts. -/
def ofList (pairs : List (String × String)) : Labels where
  entries := Entries.ofList pairs
  ascending := Entries.ofList_ascending pairs

def value? (labels : Labels) (name : String) : Option String :=
  labels.entries.find? name

end Labels

/-! Labels are written as pairs in the order of the UTF-16 code units of their
names; pairs with the same name keep their order. Nothing is escaped, so a text
in which a name or a value contains `=` or `,` may be read in several ways. -/

def labelOrder (left right : String × String) : Bool :=
  Utf16.notAfter left.1 right.1

def pairText (pair : String × String) : String :=
  pair.1 ++ "=" ++ pair.2

/-- The pairs as `name=value`, in the order of their names and joined by commas. -/
def labelsText (pairs : List (String × String)) : String :=
  ",".intercalate ((pairs.mergeSort labelOrder).map pairText)

def Labels.toText (labels : Labels) : String :=
  labelsText labels.entries

end MetricWatch
