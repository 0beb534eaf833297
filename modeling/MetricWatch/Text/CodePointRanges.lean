namespace MetricWatch

/-- Sets of characters given by the ranges of their code points, both ends
included, in ascending order: the search ends at the first range that begins
beyond the character. -/
def inRanges (code : Nat) : List (Nat × Nat) → Bool
  | [] => false
  | (first, last) :: ranges =>
      if code < first then false else code ≤ last || inRanges code ranges

end MetricWatch
