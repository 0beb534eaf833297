namespace MetricWatch.Json

/-- What can be wrong with the text of a JSON document. -/
inductive Fault where
  | endInValue
  | endInList
  | endInObject
  | endInText
  | expectedValue
  | expectedWord
  | expectedColon
  | expectedListSeparator
  | expectedObjectSeparator
  | keyIsNotText
  | trailingComma
  | trailingCharacters
  | invalidNumber
  | numberOutOfRange
  | invalidEscape
  | invalidCodePoint
  | loneSurrogate
  | unpairedSurrogate
  | controlCharacter
  | nestedTooDeep
deriving DecidableEq

def Fault.message : Fault → String
  | .endInValue => "EOF while parsing a value"
  | .endInList => "EOF while parsing a list"
  | .endInObject => "EOF while parsing an object"
  | .endInText => "EOF while parsing a string"
  | .expectedValue => "expected value"
  | .expectedWord => "expected ident"
  | .expectedColon => "expected `:`"
  | .expectedListSeparator => "expected `,` or `]`"
  | .expectedObjectSeparator => "expected `,` or `\x7d`"
  | .keyIsNotText => "key must be a string"
  | .trailingComma => "trailing comma"
  | .trailingCharacters => "trailing characters"
  | .invalidNumber => "invalid number"
  | .numberOutOfRange => "number out of range"
  | .invalidEscape => "invalid escape"
  | .invalidCodePoint => "invalid unicode code point"
  | .loneSurrogate => "lone leading surrogate in hex escape"
  | .unpairedSurrogate => "unexpected end of hex escape"
  | .controlCharacter => "control character (\\u0000-\\u001F) found while parsing a string"
  | .nestedTooDeep => "recursion limit exceeded"

end MetricWatch.Json
