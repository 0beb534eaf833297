import MetricWatch.Text.Invisible

namespace MetricWatch

/-! A text as it is shown inside a message: in double quotes, on one line, with
everything spelled out that could not be seen. -/

def hexDigits (value : Nat) : List Char :=
  Nat.toDigits 16 value

def shownCharacter (character : Char) : List Char :=
  match character with
  | '\x00' => ['\\', '0']
  | '\t' => ['\\', 't']
  | '\r' => ['\\', 'r']
  | '\n' => ['\\', 'n']
  | '\\' => ['\\', '\\']
  | '"' => ['\\', '"']
  | _ =>
      if isInvisible character then
        '\\' :: 'u' :: '{' :: (hexDigits character.toNat ++ ['}'])
      else [character]

/-- The text in double quotes. -/
def shownQuoted (text : String) : String :=
  String.ofList ('"' :: (text.toList.flatMap shownCharacter ++ ['"']))

example : shownQuoted "it's \"é\"\n\x7f" = "\"it's \\\"é\\\"\\n\\u\x7b7f\x7d\"" := by
  decide +kernel

end MetricWatch
