import MetricWatch.Dictionary
import MetricWatch.Json.Node

namespace MetricWatch.Json

/-- What a document says. The members of an object are ordered by their keys, and
of members with the same key only the last one counts. -/
inductive Value where
  | null
  | bool (value : Bool)
  | number (value : Number)
  | text (value : String)
  | array (items : List Value)
  | object (members : List (String × Value))

namespace Value

def ofLiteral : Literal → Value
  | .null => .null
  | .bool value => .bool value
  | .number value => .number value

mutual
/-- A value is written without blanks. -/
def write : Value → List Char
  | .null => "null".toList
  | .bool true => "true".toList
  | .bool false => "false".toList
  | .number value => value.write.toList
  | .text content => Quoted.write content.toList
  | .array items => '[' :: writeItems items
  | .object members => '{' :: writeMembers members

def writeItems : List Value → List Char
  | [] => [']']
  | [last] => write last ++ [']']
  | item :: items => write item ++ ',' :: writeItems items

def writeMembers : List (String × Value) → List Char
  | [] => ['}']
  | [(key, last)] => Quoted.write key.toList ++ ':' :: (write last ++ ['}'])
  | (key, value) :: members =>
      Quoted.write key.toList ++ ':' :: (write value ++ ',' :: writeMembers members)
end

def toText (value : Value) : String :=
  String.ofList value.write

end Value

namespace Ending

/-- What is wrong with an ending, for a reader who wants the items or members. -/
def itemFault? : Ending → Option Fault
  | .closed => none
  | .trailingComma => some .trailingComma
  | .endAfterComma => some .endInValue
  | .keyIsNotText => some .keyIsNotText
  | .missingSeparator => some .expectedListSeparator
  | .unfinished => some .endInList
  | .interrupted => some .endInValue

def memberFault? : Ending → Option Fault
  | .closed => none
  | .trailingComma => some .trailingComma
  | .endAfterComma => some .endInValue
  | .keyIsNotText => some .keyIsNotText
  | .missingSeparator => some .expectedObjectSeparator
  | .unfinished => some .endInObject
  | .interrupted => some .endInValue

/-- What is wrong with it for a reader who passes over the items or members. -/
def skimmedItemFault? : Ending → Option Fault
  | .trailingComma => some .expectedValue
  | ending => ending.itemFault?

def skimmedMemberFault? : Ending → Option Fault
  | .trailingComma => some .keyIsNotText
  | .endAfterComma => some .endInObject
  | ending => ending.memberFault?

/-- What is wrong with the end of an array of which a fixed number of items has
been read: nothing but its closing bracket may follow. -/
def surplusFault? (surplus : List Node) (ending : Ending) : Option Fault :=
  match surplus, ending with
  | [], .closed => none
  | [], .trailingComma => some .trailingComma
  | [], .unfinished => some .endInList
  | _, _ => some .trailingCharacters

end Ending

def Fault.check (fault? : Option Fault) : Except Fault Unit :=
  match fault? with
  | none => .ok ()
  | some fault => .error fault

namespace Node

mutual
/-- The value of a node, or the first fault in it. Arrays and objects may be
nested as deep as `depth` says. -/
def toValue (depth : Nat) : Node → Except Fault Value
  | .literal lexeme => lexeme.strict.map .ofLiteral
  | .text lexeme => lexeme.strict.map .text
  | .absent fault => .error fault
  | .array items ending =>
      match depth with
      | 0 => .error .nestedTooDeep
      | depth + 1 => do
          let values ← itemValues depth items
          Fault.check ending.itemFault?
          return .array values
  | .object members ending =>
      match depth with
      | 0 => .error .nestedTooDeep
      | depth + 1 => do
          let pairs ← memberValues depth members
          Fault.check ending.memberFault?
          return .object (Entries.ofList pairs)

def itemValues (depth : Nat) : List Node → Except Fault (List Value)
  | [] => .ok []
  | item :: items => do
      let value ← toValue depth item
      let values ← itemValues depth items
      return value :: values

def memberValues (depth : Nat) :
    List (Lexeme String × Node) → Except Fault (List (String × Value))
  | [] => .ok []
  | (key, node) :: members => do
      let name ← key.strict
      let value ← toValue depth node
      let pairs ← memberValues depth members
      return (name, value) :: pairs
end

mutual
/-- The first fault that is met when a node is only passed over. -/
def skimFault? : Node → Option Fault
  | .literal lexeme => lexeme.skimmed
  | .text lexeme => lexeme.skimmed
  | .absent fault => some fault
  | .array items ending => skimItems items <|> ending.skimmedItemFault?
  | .object members ending => skimMembers members <|> ending.skimmedMemberFault?

def skimItems : List Node → Option Fault
  | [] => none
  | item :: items => skimFault? item <|> skimItems items

def skimMembers : List (Lexeme String × Node) → Option Fault
  | [] => none
  | (key, node) :: members => key.skimmed <|> skimFault? node <|> skimMembers members
end

end Node

end MetricWatch.Json
