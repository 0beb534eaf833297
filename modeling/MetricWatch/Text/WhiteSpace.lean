namespace MetricWatch

/-- The characters with the Unicode property White_Space. -/
def isWhiteSpace (character : Char) : Bool :=
  let code := character.toNat
  (0x09 ≤ code && code ≤ 0x0D) || code == 0x20 || code == 0x85 || code == 0xA0 ||
    code == 0x1680 || (0x2000 ≤ code && code ≤ 0x200A) || code == 0x2028 ||
    code == 0x2029 || code == 0x202F || code == 0x205F || code == 0x3000

theorem isWhiteSpace_of_isWhitespace {character : Char} (white : character.isWhitespace) :
    isWhiteSpace character := by
  simp only [Char.isWhitespace, Bool.or_eq_true, decide_eq_true_eq] at white
  rcases white with ((rfl | rfl) | rfl) | rfl <;> decide

def trimStart (text : List Char) : List Char :=
  text.dropWhile isWhiteSpace

def trimEnd (text : List Char) : List Char :=
  (text.reverse.dropWhile isWhiteSpace).reverse

def trim (text : List Char) : List Char :=
  trimEnd (trimStart text)

end MetricWatch
