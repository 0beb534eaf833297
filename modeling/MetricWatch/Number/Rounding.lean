namespace MetricWatch

/-- Division to the nearest whole number. A quotient exactly between two whole
numbers goes to the even one of them. -/
def nearestQuotient (numerator denominator : Nat) : Nat :=
  let quotient := numerator / denominator
  let doubledRemainder := 2 * (numerator % denominator)
  if doubledRemainder < denominator then quotient
  else if denominator < doubledRemainder then quotient + 1
  else if quotient % 2 = 0 then quotient
  else quotient + 1

example : [nearestQuotient 5 2, nearestQuotient 7 2, nearestQuotient 8 3] = [2, 4, 3] := by
  decide

theorem div_le_nearestQuotient (numerator denominator : Nat) :
    numerator / denominator ≤ nearestQuotient numerator denominator := by
  simp only [nearestQuotient]
  repeat' split
  all_goals omega

theorem nearestQuotient_le_succ_div (numerator denominator : Nat) :
    nearestQuotient numerator denominator ≤ numerator / denominator + 1 := by
  simp only [nearestQuotient]
  repeat' split
  all_goals omega

theorem nearestQuotient_mul (factor : Nat) {denominator : Nat} (positive : 0 < denominator) :
    nearestQuotient (factor * denominator) denominator = factor := by
  simp [nearestQuotient, positive]

end MetricWatch
