import Mathlib.Algebra.Order.Field.Rat
import Mathlib.Order.Monotone.Basic
import Mathlib.Tactic.FieldSimp
import Mathlib.Tactic.Linarith
import Mathlib.Tactic.Positivity
import Mathlib.Tactic.Ring
import MetricWatch.Proofs.Number.Whole

namespace MetricWatch

/-! Rounding to the nearest whole number: twice the numerator lies between the two odd multiples
of the denominator around the result, and meets one of them only if the result is even. -/

section Quotient

variable (numerator : Nat) {denominator : Nat} (positive : 0 < denominator)

include positive

theorem exists_nearestQuotient_eq : ∃ quotient remainder,
    numerator = denominator * quotient + remainder ∧ remainder < denominator ∧
      (nearestQuotient numerator denominator = quotient ∧ 2 * remainder ≤ denominator ∧
          (2 * remainder = denominator → quotient % 2 = 0) ∨
        nearestQuotient numerator denominator = quotient + 1 ∧ denominator ≤ 2 * remainder ∧
          (2 * remainder = denominator → (quotient + 1) % 2 = 0)) := by
  refine ⟨numerator / denominator, numerator % denominator,
    (Nat.div_add_mod _ _).symm, Nat.mod_lt _ positive, ?_⟩
  simp only [nearestQuotient]
  repeat' split
  all_goals omega

theorem two_mul_le_nearestQuotient :
    2 * numerator ≤ (2 * nearestQuotient numerator denominator + 1) * denominator ∧
      (2 * numerator = (2 * nearestQuotient numerator denominator + 1) * denominator →
        nearestQuotient numerator denominator % 2 = 0) := by
  have ⟨quotient, remainder, divided, less, rounded⟩ :=
    exists_nearestQuotient_eq numerator positive
  rw [divided] at rounded ⊢
  rcases rounded with ⟨down, small, even⟩ | ⟨up, large, even⟩
  · rw [down]
    exact ⟨by linarith, fun isTie => even (by linarith)⟩
  · rw [up]
    exact ⟨by linarith, fun isTie => absurd isTie (by intro; linarith)⟩

theorem nearestQuotient_le_two_mul :
    2 * nearestQuotient numerator denominator * denominator ≤ 2 * numerator + denominator ∧
      (2 * nearestQuotient numerator denominator * denominator = 2 * numerator + denominator →
        nearestQuotient numerator denominator % 2 = 0) := by
  have ⟨quotient, remainder, divided, less, rounded⟩ :=
    exists_nearestQuotient_eq numerator positive
  rw [divided] at rounded ⊢
  rcases rounded with ⟨down, small, even⟩ | ⟨up, large, even⟩
  · rw [down]
    exact ⟨by linarith, fun isTie => absurd isTie (by intro; linarith)⟩
  · rw [up]
    exact ⟨by linarith, fun isTie => even (by linarith)⟩

end Quotient

namespace Magnitude

/-! The units of a rank. Ranks go on beyond infinity here, as if there were always a next
binade. -/

def unitsAt (rank : Nat) : Nat :=
  (rank - (rank / stepsPerBinade - 1) * stepsPerBinade) <<< (rank / stepsPerBinade - 1)

theorem unitsAt_rank (magnitude : Magnitude) : unitsAt magnitude.rank = magnitude.units :=
  rfl

section Binade

variable {doublings steps : Nat} (least : doublings = 0 ∨ stepsPerBinade ≤ steps)

include least

/-- The last step of a binade is the first one of the next. -/
theorem unitsAt_eq (most : steps ≤ 2 * stepsPerBinade) :
    unitsAt (doublings * stepsPerBinade + steps) = steps * 2 ^ doublings := by
  have positive : 0 < stepsPerBinade := by decide
  have split : (doublings * stepsPerBinade + steps) / stepsPerBinade =
      doublings + steps / stepsPerBinade := by
    rw [Nat.add_comm, Nat.add_mul_div_right _ _ positive, Nat.add_comm]
  rw [unitsAt, split, Nat.shiftLeft_eq]
  rcases Nat.lt_or_ge steps stepsPerBinade with below | notBelow
  · have noDoublings : doublings = 0 := least.resolve_right (Nat.not_le.mpr below)
    rw [noDoublings, Nat.div_eq_of_lt below, Nat.zero_mul, Nat.zero_add]
    rfl
  · rcases Nat.lt_or_ge steps (2 * stepsPerBinade) with notLast | isLast
    · have one : steps / stepsPerBinade = 1 :=
        Nat.div_eq_of_lt_le (by omega) (by omega)
      rw [one, Nat.add_sub_cancel, Nat.add_sub_cancel_left]
    · have isDouble : steps = 2 * stepsPerBinade := Nat.le_antisymm most isLast
      have next : doublings + 2 - 1 = doublings + 1 := rfl
      have one : doublings * stepsPerBinade + 2 * stepsPerBinade -
          (doublings + 1) * stepsPerBinade = stepsPerBinade := by
        rw [Nat.add_one_mul doublings]
        omega
      rw [isDouble, Nat.mul_div_cancel _ positive, next, one]
      ring

theorem unitsAt_succ_eq (most : steps < 2 * stepsPerBinade) :
    unitsAt (doublings * stepsPerBinade + steps + 1) =
      unitsAt (doublings * stepsPerBinade + steps) + 2 ^ doublings := by
  have next := unitsAt_eq (least.imp_right Nat.le_succ_of_le) (Nat.succ_le_of_lt most)
  rw [unitsAt_eq least (Nat.le_of_lt most), Nat.add_assoc, next, Nat.add_one_mul]

end Binade

theorem exists_binade (rank : Nat) : ∃ doublings steps,
    rank = doublings * stepsPerBinade + steps ∧ (doublings = 0 ∨ stepsPerBinade ≤ steps) ∧
      steps < 2 * stepsPerBinade := by
  have positive : 0 < stepsPerBinade := by decide
  have divided := Nat.div_add_mod rank stepsPerBinade
  have small := Nat.mod_lt rank positive
  rcases Nat.eq_zero_or_pos (rank / stepsPerBinade) with isZero | isPositive
  · rw [isZero] at divided
    exact ⟨0, rank, by omega, .inl rfl, by omega⟩
  · have fewer : (rank / stepsPerBinade - 1) * stepsPerBinade + stepsPerBinade =
        stepsPerBinade * (rank / stepsPerBinade) := by
      rw [← Nat.add_one_mul, Nat.sub_add_cancel isPositive, Nat.mul_comm]
    exact ⟨rank / stepsPerBinade - 1, stepsPerBinade + rank % stepsPerBinade, by omega,
      .inr (by omega), by omega⟩

theorem unitsAt_strictMono : StrictMono unitsAt := by
  apply strictMono_nat_of_lt_succ
  intro rank
  have ⟨doublings, steps, isRank, least, most⟩ := exists_binade rank
  rw [isRank, unitsAt_succ_eq least most]
  exact Nat.lt_add_of_pos_right (Nat.two_pow_pos doublings)

/-! Magnitudes as exact numbers. Infinity stands for the power of two behind the largest finite
magnitude, which is where it begins for rounding. -/

def value (magnitude : Magnitude) : ℚ :=
  magnitude.units / unitsPerOne

theorem unitsPerOne_cast_pos : (0 : ℚ) < unitsPerOne :=
  Nat.cast_pos.mpr unitsPerOne_pos

theorem value_le_value_iff {left right : Magnitude} :
    left.value ≤ right.value ↔ left.rank ≤ right.rank := by
  rw [value, value, div_le_div_iff_of_pos_right unitsPerOne_cast_pos, Nat.cast_le]
  exact unitsAt_strictMono.le_iff_le

theorem value_lt_value_iff {left right : Magnitude} :
    left.value < right.value ↔ left.rank < right.rank := by
  rw [← not_le, ← not_le, value_le_value_iff]

theorem eq_of_rank {left right : Magnitude} (same : left.rank = right.rank) : left = right := by
  cases left
  cases right
  congr

theorem isInfinite_iff {magnitude : Magnitude} :
    magnitude.isInfinite = true ↔ magnitude = infinity := by
  rw [isInfinite, beq_iff_eq]
  exact ⟨fun isRank => eq_of_rank isRank, congrArg rank⟩

theorem isZero_iff {magnitude : Magnitude} : magnitude.isZero = true ↔ magnitude = zero := by
  rw [isZero, beq_iff_eq]
  exact ⟨fun isRank => eq_of_rank isRank, congrArg rank⟩

theorem value_injective {left right : Magnitude} (same : left.value = right.value) :
    left = right :=
  eq_of_rank (Nat.le_antisymm (value_le_value_iff.mp same.le) (value_le_value_iff.mp same.ge))

theorem value_zero : zero.value = 0 := by
  rw [value]
  exact zero_div _

theorem value_pos_iff {magnitude : Magnitude} : 0 < magnitude.value ↔ magnitude ≠ zero := by
  rw [← value_zero, value_lt_value_iff]
  constructor
  · rintro less rfl
    exact absurd less (Nat.lt_irrefl _)
  · exact fun notZero => Nat.pos_of_ne_zero fun isZero => notZero (eq_of_rank isZero)

theorem value_nonneg (magnitude : Magnitude) : 0 ≤ magnitude.value := by
  rw [← value_zero, value_le_value_iff]
  exact Nat.zero_le _

/-- No magnitude is nearer to a number, and of two nearest ones it is the one with an even
last bit. -/
structure IsNearest (magnitude : Magnitude) (number : ℚ) : Prop where
  least : ∀ other : Magnitude, |magnitude.value - number| ≤ |other.value - number|
  even : ∀ other : Magnitude, |magnitude.value - number| = |other.value - number| →
    other = magnitude ∨ magnitude.rank % 2 = 0

end Magnitude

/-! Of two numbers the one on the same side of their middle is nearer. -/

section Middle

variable {left right : ℚ} (less : left < right) (number : ℚ)

include less

theorem abs_left_le_iff : |left - number| ≤ |right - number| ↔ 2 * number ≤ left + right := by
  rw [← sq_le_sq, ← sub_nonneg]
  have product : (right - number) ^ 2 - (left - number) ^ 2 =
      (right - left) * (left + right - 2 * number) := by ring
  rw [product, mul_nonneg_iff_of_pos_left (sub_pos.mpr less), sub_nonneg]

theorem abs_right_le_iff : |right - number| ≤ |left - number| ↔ left + right ≤ 2 * number := by
  rw [← sq_le_sq, ← sub_nonneg]
  have product : (left - number) ^ 2 - (right - number) ^ 2 =
      (right - left) * (2 * number - (left + right)) := by ring
  rw [product, mul_nonneg_iff_of_pos_left (sub_pos.mpr less), sub_nonneg]

theorem abs_eq_abs_iff_middle :
    |left - number| = |right - number| ↔ 2 * number = left + right := by
  rw [le_antisymm_iff, abs_left_le_iff less, abs_right_le_iff less, ← le_antisymm_iff]

end Middle

namespace Magnitude

/-- A nearest magnitude is on the right side of its middle to every other one. -/
theorem isNearest_iff {magnitude : Magnitude} {number : ℚ} : magnitude.IsNearest number ↔
    (∀ other : Magnitude, magnitude.value < other.value →
      2 * number ≤ magnitude.value + other.value ∧
        (2 * number = magnitude.value + other.value → magnitude.rank % 2 = 0)) ∧
    ∀ other : Magnitude, other.value < magnitude.value →
      other.value + magnitude.value ≤ 2 * number ∧
        (2 * number = other.value + magnitude.value → magnitude.rank % 2 = 0) := by
  constructor
  · intro nearest
    constructor
    · intro other above
      refine ⟨(abs_left_le_iff above number).mp (nearest.least other), fun isMiddle => ?_⟩
      have isTie := (abs_eq_abs_iff_middle above number).mpr isMiddle
      exact (nearest.even other isTie).resolve_left fun same => above.ne (same ▸ rfl)
    · intro other below
      refine ⟨(abs_right_le_iff below number).mp (nearest.least other), fun isMiddle => ?_⟩
      have isTie := (abs_eq_abs_iff_middle below number).mpr isMiddle
      exact (nearest.even other isTie.symm).resolve_left fun same => below.ne (same ▸ rfl)
  · intro ⟨above, below⟩
    constructor
    case least =>
      intro other
      rcases lt_trichotomy magnitude.value other.value with less | same | greater
      · exact (abs_left_le_iff less number).mpr (above other less).1
      · rw [same]
      · exact (abs_right_le_iff greater number).mpr (below other greater).1
    case even =>
      intro other isTie
      rcases lt_trichotomy magnitude.value other.value with less | same | greater
      · exact .inr ((above other less).2 ((abs_eq_abs_iff_middle less number).mp isTie))
      · exact .inl (value_injective same.symm)
      · exact .inr ((below other greater).2 ((abs_eq_abs_iff_middle greater number).mp isTie.symm))

section IsNearest

variable {magnitude : Magnitude} {number other : ℚ}

/-- The numbers that a magnitude is nearest to are a segment. -/
theorem IsNearest.between {first last : ℚ} (nearFirst : magnitude.IsNearest first)
    (nearLast : magnitude.IsNearest last) (notBelow : first ≤ number) (notAbove : number ≤ last) :
    magnitude.IsNearest number := by
  rw [isNearest_iff] at *
  constructor
  · intro other above
    have ⟨middle, even⟩ := nearLast.1 other above
    exact ⟨by linarith, fun isMiddle => even (by linarith)⟩
  · intro other below
    have ⟨middle, even⟩ := nearFirst.2 other below
    exact ⟨by linarith, fun isMiddle => even (by linarith)⟩

theorem isNearest_value (magnitude : Magnitude) : magnitude.IsNearest magnitude.value := by
  rw [isNearest_iff]
  constructor
  · intro other above
    exact ⟨by linarith, fun isMiddle => absurd isMiddle (by linarith)⟩
  · intro other below
    exact ⟨by linarith, fun isMiddle => absurd isMiddle (by linarith)⟩

theorem isNearest_infinity (large : infinity.value ≤ number) : infinity.IsNearest number := by
  rw [isNearest_iff]
  constructor
  · intro other above
    exact absurd (value_lt_value_iff.mp above) (Nat.not_lt.mpr other.bounded)
  · intro other below
    exact ⟨by linarith, fun isMiddle => absurd isMiddle (by linarith)⟩

/-- Only the neighbours of a rank matter. -/
theorem isNearest_of_neighbours
    (next : 2 * (number * unitsPerOne) ≤
        unitsAt magnitude.rank + unitsAt (magnitude.rank + 1) ∧
      (2 * (number * unitsPerOne) = unitsAt magnitude.rank + unitsAt (magnitude.rank + 1) →
        magnitude.rank % 2 = 0))
    (previous : ∀ rank, rank + 1 = magnitude.rank →
      (unitsAt rank + unitsAt magnitude.rank : ℚ) ≤ 2 * (number * unitsPerOne) ∧
        (2 * (number * unitsPerOne) = unitsAt rank + unitsAt magnitude.rank →
          magnitude.rank % 2 = 0)) : magnitude.IsNearest number := by
  have scaled : ∀ other : Magnitude, other.value * unitsPerOne = unitsAt other.rank :=
    fun other => div_mul_cancel₀ _ unitsPerOne_cast_pos.ne'
  have ownScaled := scaled magnitude
  have positive := unitsPerOne_cast_pos
  rw [isNearest_iff]
  constructor
  · intro other above
    have further : (unitsAt (magnitude.rank + 1) : ℚ) ≤ unitsAt other.rank :=
      Nat.cast_le.mpr (unitsAt_strictMono.monotone (value_lt_value_iff.mp above))
    rw [← scaled other] at further
    rw [← ownScaled] at next
    refine ⟨le_of_mul_le_mul_right (by linarith) positive, fun isMiddle => next.2 ?_⟩
    have middle : 2 * number * unitsPerOne = (magnitude.value + other.value) * unitsPerOne :=
      congrArg (· * (unitsPerOne : ℚ)) isMiddle
    exact le_antisymm next.1 (by linarith)
  · intro other below
    have less := value_lt_value_iff.mp below
    have ⟨middle, even⟩ := previous (magnitude.rank - 1) (by omega)
    have further : (unitsAt other.rank : ℚ) ≤ unitsAt (magnitude.rank - 1) :=
      Nat.cast_le.mpr (unitsAt_strictMono.monotone (by omega))
    rw [← scaled other] at further
    rw [← ownScaled] at middle even
    refine ⟨le_of_mul_le_mul_right (by linarith) positive, fun isMiddle => even ?_⟩
    have isMiddle : 2 * number * unitsPerOne = (other.value + magnitude.value) * unitsPerOne :=
      congrArg (· * (unitsPerOne : ℚ)) isMiddle
    exact le_antisymm (by linarith) middle

/-- Up to half a unit is nearest to zero. -/
theorem isNearest_zero (small : 2 * (number * unitsPerOne) ≤ 1) : zero.IsNearest number := by
  have units : unitsAt zero.rank + unitsAt (zero.rank + 1) = 1 := by decide
  apply isNearest_of_neighbours
  · rw [← Nat.cast_add, units, Nat.cast_one]
    exact ⟨small, fun _ => rfl⟩
  · intro rank isPrevious
    cases isPrevious

/-- Only one magnitude is nearest to a number. -/
theorem IsNearest.unique {left right : Magnitude} (nearLeft : left.IsNearest number)
    (nearRight : right.IsNearest number) : left = right := by
  by_contra different
  have isTie := le_antisymm (nearLeft.least right) (nearRight.least left)
  have evenLeft := (nearLeft.even right isTie).resolve_left (Ne.symm different)
  have evenRight := (nearRight.even left isTie.symm).resolve_left different
  wlog less : left.value < right.value generalizing left right
  · have greater : right.value < left.value :=
      lt_of_le_of_ne (not_lt.mp less) fun same => different (value_injective same).symm
    exact this nearRight nearLeft (Ne.symm different) isTie.symm evenRight evenLeft greater
  -- Between two even ranks there is an odd one, which is nearer to the middle than both.
  have order := value_lt_value_iff.mp less
  have between : left.rank + 1 < right.rank := by omega
  let middle : Magnitude := ⟨left.rank + 1, by have := right.bounded; omega⟩
  have aboveLeft : left.value < middle.value := value_lt_value_iff.mpr (Nat.lt_succ_self _)
  have belowRight : middle.value < right.value := value_lt_value_iff.mpr between
  have leftHalf := (abs_left_le_iff aboveLeft number).mp (nearLeft.least middle)
  have rightHalf := (abs_right_le_iff belowRight number).mp (nearRight.least middle)
  linarith

/-- Rounding keeps the order. -/
theorem IsNearest.mono {left right : Magnitude} (nearLeft : left.IsNearest number)
    (nearRight : right.IsNearest other) (order : number ≤ other) : left.value ≤ right.value := by
  by_contra greater
  rw [not_le] at greater
  have ⟨leftHalf, _⟩ := (isNearest_iff.mp nearLeft).2 right greater
  have ⟨rightHalf, _⟩ := (isNearest_iff.mp nearRight).1 left greater
  have same : number = other := by linarith
  exact greater.ne' (congrArg value (nearLeft.unique (same ▸ nearRight)))

end IsNearest

/-! `nearest` rounds in the binade of the quotient, so the neighbours are those of its whole
number of steps. -/

section Nearest

theorem le_unitsAt_succ {doublings steps : Nat} (least : doublings = 0 ∨ stepsPerBinade ≤ steps)
    (most : steps ≤ 2 * stepsPerBinade) :
    unitsAt (doublings * stepsPerBinade + steps) + 2 ^ doublings ≤
      unitsAt (doublings * stepsPerBinade + steps + 1) := by
  rcases Nat.lt_or_eq_of_le most with notLast | isLast
  · exact (unitsAt_succ_eq least notLast).ge
  · have nextBinade : doublings * stepsPerBinade + steps =
        (doublings + 1) * stepsPerBinade + stepsPerBinade := by
      rw [isLast, Nat.add_one_mul doublings]
      omega
    have notLast : stepsPerBinade < 2 * stepsPerBinade := by decide
    rw [nextBinade, unitsAt_succ_eq (.inr (Nat.le_refl _)) notLast]
    exact Nat.add_le_add_left (Nat.pow_le_pow_right (by decide) (Nat.le_succ _)) _

theorem even_rank_iff {doublings steps : Nat} :
    (doublings * stepsPerBinade + steps) % 2 = 0 ↔ steps % 2 = 0 := by
  have even : doublings * stepsPerBinade % 2 = 0 := by
    rw [Nat.mul_mod]
    exact congrArg (· % 2) (Nat.mul_zero _)
  rw [Nat.add_mod, even, Nat.zero_add, Nat.mod_mod]

/-- The binade of a quotient in units, and the number of steps in it. -/
def binadeOf (scaled denominator : Nat) : Nat :=
  (scaled / denominator).log2 - 52

def stepsOf (scaled denominator : Nat) : Nat :=
  nearestQuotient scaled (denominator <<< binadeOf scaled denominator)

variable (scaled : Nat) {denominator : Nat}

theorem stepsOf_le : stepsOf scaled denominator ≤ 2 * stepsPerBinade := by
  have inBinade : scaled / denominator < 2 ^ (binadeOf scaled denominator + 53) := by
    refine Nat.lt_of_lt_of_le Nat.lt_log2_self (Nat.pow_le_pow_right (by decide) ?_)
    rw [binadeOf]
    omega
  have bounded : scaled / (denominator <<< binadeOf scaled denominator) < 2 * stepsPerBinade := by
    rw [Nat.shiftLeft_eq, ← Nat.div_div_eq_div_mul]
    rw [Nat.pow_add] at inBinade
    exact Nat.div_lt_of_lt_mul inBinade
  exact Nat.le_trans (nearestQuotient_le_succ_div _ _) bounded

variable {scaled} in
theorem le_div_of_binadeOf (notFirst : binadeOf scaled denominator ≠ 0) :
    stepsPerBinade ≤ scaled / (denominator <<< binadeOf scaled denominator) := by
  have large : (scaled / denominator).log2 = 52 + binadeOf scaled denominator := by
    rw [binadeOf] at *
    omega
  have notZero : scaled / denominator ≠ 0 := by
    intro isZero
    rw [binadeOf, isZero] at notFirst
    exact notFirst rfl
  have inBinade := Nat.log2_self_le notZero
  rw [large, Nat.pow_add] at inBinade
  rw [Nat.shiftLeft_eq, ← Nat.div_div_eq_div_mul]
  exact (Nat.le_div_iff_mul_le (Nat.two_pow_pos _)).mpr inBinade

theorem le_stepsOf :
    binadeOf scaled denominator = 0 ∨ stepsPerBinade ≤ stepsOf scaled denominator := by
  by_cases isFirst : binadeOf scaled denominator = 0
  · exact .inl isFirst
  · exact .inr (Nat.le_trans (le_div_of_binadeOf isFirst) (div_le_nearestQuotient _ _))

/-- The rank of a quotient of units, if there were no infinity. -/
def rankOf (scaled denominator : Nat) : Nat :=
  binadeOf scaled denominator * stepsPerBinade + stepsOf scaled denominator

theorem unitsAt_rankOf : unitsAt (rankOf scaled denominator) =
    stepsOf scaled denominator * 2 ^ binadeOf scaled denominator :=
  unitsAt_eq (le_stepsOf scaled) (stepsOf_le scaled)

/-- Apart from the first step of a binade, the rank before is one step of the same binade lower. -/
theorem unitsAt_rankOf_of_previous {rank : Nat} (isPrevious : rank + 1 = rankOf scaled denominator)
    (notStart : ¬(binadeOf scaled denominator ≠ 0 ∧
      stepsOf scaled denominator = stepsPerBinade)) :
    unitsAt (rankOf scaled denominator) = unitsAt rank + 2 ^ binadeOf scaled denominator := by
  have least := @le_stepsOf scaled denominator
  have most := @stepsOf_le scaled denominator
  obtain ⟨fewer, isFewer⟩ : ∃ fewer, stepsOf scaled denominator = fewer + 1 := by
    apply Nat.exists_eq_succ_of_ne_zero
    intro noSteps
    rcases least with isFirst | notFewer
    · rw [rankOf, isFirst, noSteps] at isPrevious
      omega
    · rw [noSteps] at notFewer
      exact absurd notFewer (by decide)
  have isRank : rank = binadeOf scaled denominator * stepsPerBinade + fewer := by
    rw [rankOf, isFewer] at isPrevious
    omega
  rw [← isPrevious, isRank]
  exact unitsAt_succ_eq (by omega) (by omega)

variable (positive : 0 < denominator)

include positive

theorem two_mul_le_next :
    2 * scaled ≤ (unitsAt (rankOf scaled denominator) + unitsAt (rankOf scaled denominator + 1)) *
        denominator ∧
      (2 * scaled = (unitsAt (rankOf scaled denominator) +
          unitsAt (rankOf scaled denominator + 1)) * denominator →
        rankOf scaled denominator % 2 = 0) := by
  have steps : 0 < denominator <<< binadeOf scaled denominator := Nat.shiftLeft_pos_iff.mpr positive
  have ⟨half, even⟩ := two_mul_le_nearestQuotient scaled steps
  have further : unitsAt (rankOf scaled denominator) + 2 ^ binadeOf scaled denominator ≤
      unitsAt (rankOf scaled denominator + 1) :=
    le_unitsAt_succ (le_stepsOf scaled) (stepsOf_le scaled)
  have widened := Nat.mul_le_mul_right denominator
    (Nat.add_le_add_left further (unitsAt (rankOf scaled denominator)))
  have middle : (2 * stepsOf scaled denominator + 1) *
        (denominator <<< binadeOf scaled denominator) =
      (unitsAt (rankOf scaled denominator) + (unitsAt (rankOf scaled denominator) +
        2 ^ binadeOf scaled denominator)) * denominator := by
    rw [unitsAt_rankOf, Nat.shiftLeft_eq]
    ring
  rw [← middle] at widened
  refine ⟨half.trans widened, fun isMiddle => even_rank_iff.mpr (even ?_)⟩
  exact Nat.le_antisymm half (isMiddle ▸ widened)

theorem previous_le_two_mul {rank : Nat} (isPrevious : rank + 1 = rankOf scaled denominator) :
    (unitsAt rank + unitsAt (rankOf scaled denominator)) * denominator ≤ 2 * scaled ∧
      (2 * scaled = (unitsAt rank + unitsAt (rankOf scaled denominator)) * denominator →
        rankOf scaled denominator % 2 = 0) := by
  have steps : 0 < denominator <<< binadeOf scaled denominator := Nat.shiftLeft_pos_iff.mpr positive
  by_cases isStart : binadeOf scaled denominator ≠ 0 ∧
      stepsOf scaled denominator = stepsPerBinade
  · -- Below the first step of a binade the neighbour is nearer, but the quotient is not below.
    have notBelow := Nat.mul_le_of_le_div _ _ _ (le_div_of_binadeOf isStart.1)
    have same : stepsPerBinade * (denominator <<< binadeOf scaled denominator) =
        unitsAt (rankOf scaled denominator) * denominator := by
      rw [unitsAt_rankOf, isStart.2, Nat.shiftLeft_eq]
      ring
    have less : unitsAt rank < unitsAt (rankOf scaled denominator) :=
      unitsAt_strictMono (isPrevious ▸ Nat.lt_succ_self rank)
    have further := Nat.mul_lt_mul_of_pos_right less positive
    rw [Nat.add_mul]
    omega
  · have ⟨half, even⟩ := nearestQuotient_le_two_mul scaled steps
    have gap := unitsAt_rankOf_of_previous scaled isPrevious isStart
    have middle : (unitsAt rank + unitsAt (rankOf scaled denominator)) * denominator +
          denominator <<< binadeOf scaled denominator =
        2 * stepsOf scaled denominator * (denominator <<< binadeOf scaled denominator) := by
      have doubled : 2 * unitsAt (rankOf scaled denominator) =
          unitsAt rank + unitsAt (rankOf scaled denominator) +
            2 ^ binadeOf scaled denominator := by omega
      rw [Nat.shiftLeft_eq, Nat.mul_comm denominator, ← Nat.add_mul, ← doubled, unitsAt_rankOf]
      ring
    rw [stepsOf] at middle
    exact ⟨by omega, fun isMiddle => even_rank_iff.mpr (even (by omega))⟩

/-- Rounding a quotient gives the magnitude that is nearest to it. -/
theorem isNearest_nearest (numerator : Nat) :
    (nearest numerator denominator).IsNearest (numerator / denominator) := by
  have isRank : (nearest numerator denominator).rank =
      min (rankOf (numerator * unitsPerOne) denominator) infinityRank := rfl
  have inUnits : (numerator / denominator * unitsPerOne : ℚ) =
      ((numerator * unitsPerOne : Nat) : ℚ) / denominator := by
    rw [Nat.cast_mul]
    ring
  have divides : (0 : ℚ) < denominator := Nat.cast_pos.mpr positive
  have next := two_mul_le_next (numerator * unitsPerOne) positive
  have previous := @previous_le_two_mul (numerator * unitsPerOne) denominator positive
  generalize numerator * unitsPerOne = scaled at *
  rcases Nat.lt_or_ge infinityRank (rankOf scaled denominator) with beyond | notBeyond
  · rw [Nat.min_eq_right (Nat.le_of_lt beyond)] at isRank
    have isInfinity : nearest numerator denominator = infinity := value_injective
      (le_antisymm (value_le_value_iff.mpr isRank.le) (value_le_value_iff.mpr isRank.ge))
    have ⟨middle, _⟩ := previous (Nat.sub_add_cancel (by omega))
    have notBelow : unitsAt infinityRank ≤ unitsAt (rankOf scaled denominator - 1) :=
      unitsAt_strictMono.monotone (by omega)
    have order := unitsAt_strictMono beyond
    have large : infinity.units * denominator ≤ scaled := by
      refine Nat.le_of_mul_le_mul_left (Nat.le_trans ?_ middle) Nat.two_pos
      rw [← Nat.mul_assoc, Nat.two_mul]
      exact Nat.mul_le_mul_right _ (Nat.add_le_add notBelow order.le)
    rw [isInfinity]
    apply isNearest_infinity
    rw [value, div_le_iff₀ unitsPerOne_cast_pos, inUnits, le_div_iff₀ divides]
    exact_mod_cast large
  · rw [Nat.min_eq_left notBeyond] at isRank
    apply isNearest_of_neighbours
    · rw [isRank, inUnits, ← mul_div_assoc, div_le_iff₀ divides, div_eq_iff divides.ne']
      exact_mod_cast next
    · intro rank isPrevious
      rw [isRank] at isPrevious ⊢
      rw [inUnits, ← mul_div_assoc, le_div_iff₀ divides, div_eq_iff divides.ne']
      exact_mod_cast previous isPrevious

end Nearest

/-! What is near enough to a magnitude is read as it. -/

theorem unitsAt_le_next (rank : Nat) :
    2 ^ 53 * unitsAt rank + unitsAt rank ≤ 2 ^ 53 * unitsAt (rank + 1) := by
  have ⟨doublings, steps, isRank, least, most⟩ := exists_binade rank
  have few : steps ≤ 2 ^ 53 := Nat.le_of_lt most
  rw [isRank, unitsAt_succ_eq least most, Nat.mul_add, unitsAt_eq least most.le]
  exact Nat.add_le_add_left (Nat.mul_le_mul_right _ few) _

theorem unitsAt_le_previous (rank : Nat) :
    2 ^ 53 * unitsAt rank + unitsAt (rank + 1) ≤ 2 ^ 53 * unitsAt (rank + 1) := by
  have ⟨doublings, steps, isRank, least, most⟩ := exists_binade rank
  have few : steps + 1 ≤ 2 ^ 53 := Nat.succ_le_of_lt most
  rw [isRank, unitsAt_succ_eq least most, Nat.mul_add, unitsAt_eq least most.le, ← Nat.add_one_mul]
  exact Nat.add_le_add_left (Nat.mul_le_mul_right _ few) _

theorem isNearest_of_close {magnitude : Magnitude} {number : ℚ}
    (close : 2 ^ 54 * |number - magnitude.value| < magnitude.value) :
    magnitude.IsNearest number := by
  have positive := unitsPerOne_cast_pos
  have ownScaled : magnitude.value * unitsPerOne = unitsAt magnitude.rank :=
    div_mul_cancel₀ _ positive.ne'
  have isAbove := mul_lt_mul_of_pos_right
    (lt_of_le_of_lt (mul_le_mul_of_nonneg_left (le_abs_self _) (by norm_num)) close) positive
  have isBelow := mul_lt_mul_of_pos_right
    (lt_of_le_of_lt (mul_le_mul_of_nonneg_left (neg_le_abs _) (by norm_num)) close) positive
  rw [ownScaled, mul_assoc] at isAbove isBelow
  rw [sub_mul, ownScaled] at isAbove
  rw [neg_mul, sub_mul, ownScaled] at isBelow
  apply isNearest_of_neighbours
  · have gap : (2 ^ 53 * unitsAt magnitude.rank + unitsAt magnitude.rank : ℚ) ≤
        2 ^ 53 * unitsAt (magnitude.rank + 1) := by
      exact_mod_cast unitsAt_le_next magnitude.rank
    exact ⟨by linarith, fun isTie => absurd isTie (by intro; linarith)⟩
  · intro rank isPrevious
    have gap : (2 ^ 53 * unitsAt rank + unitsAt magnitude.rank : ℚ) ≤
        2 ^ 53 * unitsAt magnitude.rank := by
      rw [← isPrevious]
      exact_mod_cast unitsAt_le_previous rank
    exact ⟨by linarith, fun isTie => absurd isTie (by intro; linarith)⟩

end Magnitude

end MetricWatch
