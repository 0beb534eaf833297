import Mathlib.Algebra.Order.Round
import Mathlib.Data.Rat.Floor
import Mathlib.Tactic.Qify
import MetricWatch.Proofs.Number.Nearest

namespace MetricWatch

/-! The steps between the doubles of a binade, and what rounding does on their scale. -/

/-- Between two whole numbers there is one within half of every number. -/
theorem exists_natCast_near {number : ℚ} {least most : Nat} (notBelow : least ≤ number)
    (notAbove : number ≤ most) : ∃ count : Nat, least ≤ count ∧ count ≤ most ∧
      2 * |(count : ℚ) - number| ≤ 1 := by
  have ⟨isBelow, isAbove⟩ := abs_le.mp (abs_sub_round number)
  have bounds : (least : Int) - 1 < round number ∧ round number < (most : Int) + 1 := by
    constructor <;> (qify; linarith)
  have ⟨count, isCount⟩ := Int.eq_ofNat_of_zero_le (show 0 ≤ round number by omega)
  rw [isCount, Int.cast_natCast] at isBelow isAbove
  refine ⟨count, by omega, by omega, ?_⟩
  rw [← abs_two, ← abs_mul, abs_le]
  constructor <;> linarith

namespace Magnitude

def step (doublings : Nat) : ℚ :=
  2 ^ doublings / unitsPerOne

section Step

variable {doublings places : Nat}

theorem step_pos (doublings : Nat) : 0 < step doublings :=
  div_pos (pow_pos two_pos doublings) unitsPerOne_cast_pos

theorem step_add (doublings places : Nat) :
    step (doublings + places) = 2 ^ places * step doublings := by
  rw [step, step, pow_add]
  ring

/-- There are a power of two steps in one. -/
theorem two_pow_mul_step (together : doublings + places = 1074) :
    2 ^ places * step doublings = 1 := by
  have isPower : unitsPerOne = 1 <<< (doublings + places) := by
    rw [together, unitsPerOne]
  rw [← step_add, step, isPower, Nat.one_shiftLeft, Nat.cast_pow, Nat.cast_ofNat]
  exact div_self (pow_ne_zero _ two_ne_zero)

end Step

section Binade

variable {doublings steps : Nat}

/-- The magnitude some steps into a binade. -/
def ofSteps (doublings steps : Nat)
    (bounded : doublings * stepsPerBinade + steps ≤ infinityRank) : Magnitude :=
  ⟨doublings * stepsPerBinade + steps, bounded⟩

theorem value_ofSteps {bounded : doublings * stepsPerBinade + steps ≤ infinityRank}
    (least : stepsPerBinade ≤ steps) (most : steps ≤ 2 * stepsPerBinade) :
    (ofSteps doublings steps bounded).value = steps * step doublings := by
  rw [value, ← unitsAt_rank, ofSteps, unitsAt_eq (.inr least) most, step]
  push_cast
  ring

variable {magnitude : Magnitude} {number : ℚ}

/-- In a binade, rounding is off by half a step at most. -/
theorem IsNearest.error_le (isNearest : magnitude.IsNearest number)
    (bounded : (doublings + 2) * stepsPerBinade ≤ infinityRank)
    (notBelow : stepsPerBinade * step doublings ≤ number)
    (notAbove : number ≤ 2 * stepsPerBinade * step doublings) :
    2 * |magnitude.value - number| ≤ step doublings := by
  have positive := step_pos doublings
  have inSteps : number = number / step doublings * step doublings :=
    (div_mul_cancel₀ number positive.ne').symm
  obtain ⟨steps, least, most, close⟩ : ∃ steps : Nat, stepsPerBinade ≤ steps ∧
      steps ≤ 2 * stepsPerBinade ∧ 2 * |(steps : ℚ) - number / step doublings| ≤ 1 := by
    apply exists_natCast_near
    · rwa [le_div_iff₀ positive]
    · rwa [div_le_iff₀ positive, Nat.cast_mul, Nat.cast_ofNat]
  have fits : doublings * stepsPerBinade + steps ≤ infinityRank := by
    rw [Nat.add_mul] at bounded
    omega
  have least := isNearest.least (ofSteps doublings steps fits)
  have error : |(ofSteps doublings steps fits).value - number| =
      |(steps : ℚ) - number / step doublings| * step doublings := by
    rw [value_ofSteps ‹_› most, ← abs_of_pos positive, ← abs_mul, abs_of_pos positive, sub_mul,
      ← inSteps]
  rw [error] at least
  have scaled := mul_le_mul_of_nonneg_right close positive.le
  linarith

/-- Inside a binade, what is within half a step of a magnitude is read as it. -/
theorem isNearest_ofSteps {bounded : doublings * stepsPerBinade + steps ≤ infinityRank}
    (least : stepsPerBinade < steps) (most : steps < 2 * stepsPerBinade)
    (close : 2 * |number - steps * step doublings| < step doublings) :
    (ofSteps doublings steps bounded).IsNearest number := by
  have positive := unitsPerOne_cast_pos
  have inUnits : step doublings * unitsPerOne = 2 ^ doublings := div_mul_cancel₀ _ positive.ne'
  have scaled := mul_lt_mul_of_pos_right close positive
  rw [mul_assoc, ← abs_of_pos positive, ← abs_mul, abs_of_pos positive, sub_mul, mul_assoc,
    inUnits] at scaled
  have isAbove := le_abs_self (number * unitsPerOne - steps * 2 ^ doublings)
  have isBelow := neg_abs_le (number * unitsPerOne - steps * 2 ^ doublings)
  have own : (unitsAt (doublings * stepsPerBinade + steps) : ℚ) = steps * 2 ^ doublings := by
    exact_mod_cast unitsAt_eq (.inr least.le) most.le
  have next : (unitsAt (doublings * stepsPerBinade + steps + 1) : ℚ) =
      unitsAt (doublings * stepsPerBinade + steps) + 2 ^ doublings := by
    exact_mod_cast unitsAt_succ_eq (.inr least.le) most
  apply isNearest_of_neighbours
  · rw [ofSteps, next, own]
    exact ⟨by linarith, fun isTie => absurd isTie (by intro; linarith)⟩
  · intro rank isPrevious
    have previous : (unitsAt (doublings * stepsPerBinade + steps) : ℚ) =
        unitsAt rank + 2 ^ doublings := by
      obtain ⟨fewer, rfl⟩ : ∃ fewer, steps = fewer + 1 := ⟨steps - 1, by omega⟩
      obtain rfl : rank = doublings * stepsPerBinade + fewer := Nat.succ.inj isPrevious
      rw [← Nat.add_assoc]
      exact_mod_cast unitsAt_succ_eq (.inr (Nat.le_of_lt_succ least)) (by omega)
    rw [ofSteps]
    exact ⟨by linarith, fun isTie => absurd isTie (by intro; linarith)⟩

/-- A quotient that has been rounded gives the dividend back when it is multiplied with the
divisor, if the dividend is a double and its steps are larger than those of the quotient by more
than the divisor. -/
theorem IsNearest.product {factor places : Nat} (isNearest : magnitude.IsNearest number)
    (notBelow : stepsPerBinade * step doublings ≤ number)
    (notAbove : number ≤ 2 * stepsPerBinade * step doublings)
    (finer : factor < 2 ^ places) (isProduct : number * factor = steps * step (doublings + places))
    (least : stepsPerBinade < steps) (most : steps < 2 * stepsPerBinade)
    (bounded : (doublings + places) * stepsPerBinade + steps ≤ infinityRank) :
    (ofSteps (doublings + places) steps bounded).IsNearest (magnitude.value * factor) := by
  have notNegative : (0 : ℚ) ≤ factor := Nat.cast_nonneg factor
  have fits : (doublings + 2) * stepsPerBinade ≤ infinityRank := by
    rw [Nat.add_mul] at bounded ⊢
    rcases Nat.eq_zero_or_pos places with rfl | positive
    · have noFactor : factor = 0 := Nat.lt_one_iff.mp finer
      have notZero : (0 : ℚ) < steps * step (doublings + 0) :=
        mul_pos (Nat.cast_pos.mpr (Nat.zero_lt_of_lt least)) (step_pos _)
      rw [← isProduct, noFactor, Nat.cast_zero, mul_zero] at notZero
      exact absurd notZero (lt_irrefl 0)
    · have one := Nat.mul_le_mul_right stepsPerBinade positive
      omega
  have error := mul_le_mul_of_nonneg_right (isNearest.error_le fits notBelow notAbove) notNegative
  have smaller : step doublings * factor < step (doublings + places) := by
    rw [step_add, mul_comm]
    exact mul_lt_mul_of_pos_right (by exact_mod_cast finer) (step_pos doublings)
  rw [mul_assoc, ← abs_of_nonneg notNegative, ← abs_mul, abs_of_nonneg notNegative, sub_mul,
    isProduct] at error
  exact isNearest_ofSteps least most (error.trans_lt smaller)

end Binade

end Magnitude

end MetricWatch
