import MetricWatch.Proofs.Number.Grid

namespace MetricWatch

/-! The decimal with the fewest digits that reads back as a magnitude. -/

namespace Decimal

/-- Of the decimals that are read as a magnitude, the one with the fewest digits, of these the
nearest one, and of two equally near ones the even one. -/
structure IsShortest (decimal : Decimal) (magnitude : Magnitude) : Prop where
  readsBack : magnitude.IsNearest decimal.value
  fewest : ∀ other : Decimal, magnitude.IsNearest other.value → decimal.places ≤ other.places
  least : ∀ other : Decimal, magnitude.IsNearest other.value → other.places = decimal.places →
    |decimal.value - magnitude.value| ≤ |other.value - magnitude.value|
  even : ∀ other : Decimal, magnitude.IsNearest other.value → other.places = decimal.places →
    |decimal.value - magnitude.value| = |other.value - magnitude.value| →
      other = decimal ∨ decimal.coefficient % 2 = 0

end Decimal

namespace Magnitude

variable {magnitude : Magnitude} {exponent : Int}

/-! The power of ten of the first digit, and the grid of 17 digits. -/

section Positive

variable (notZero : magnitude ≠ zero)

include notZero

theorem coefficient_pos {decimal : Decimal} (readsBack : magnitude.IsNearest decimal.value) :
    0 < decimal.coefficient := by
  rw [← Decimal.value_pos_iff]
  refine lt_of_le_of_ne decimal.value_nonneg fun isZero => notZero ?_
  rw [← isZero, ← value_zero] at readsBack
  exact readsBack.unique zero.isNearest_value

/-- The multiple of 10^-400 below a magnitude shows its first digit. -/
theorem coefficient_below_pos : 0 < (magnitude.below (-400)).coefficient := by
  have isPositive := value_pos_iff.mpr notZero
  have unit : 0 < magnitude.units := by
    refine Nat.pos_of_ne_zero fun isZero => isPositive.ne' ?_
    rw [value, isZero, Nat.cast_zero, zero_div]
  have fine : gridDenominator (-400) ≤ Nat.pow 10 (-(-400 : Int)).toNat := by decide +kernel
  exact Nat.div_pos (fine.trans (Nat.le_mul_of_pos_left _ unit)) (gridDenominator_pos _)

omit notZero in
theorem leadingExponent_eq_below (magnitude : Magnitude) :
    magnitude.leadingExponent = (magnitude.below (-400)).leadingExponent := by
  have denominator : gridDenominator (-400) = unitsPerOne := Nat.mul_one _
  have places : 400 = (-(-400) : Int).toNat := rfl
  rw [leadingExponent, places, ← gridNumerator, ← denominator]
  exact sub_eq_neg_add _ _

theorem ten_zpow_le_value_iff {exponent : Int} :
    10 ^ exponent ≤ magnitude.value ↔ exponent ≤ magnitude.leadingExponent := by
  have positive := coefficient_below_pos notZero
  rw [leadingExponent_eq_below, ← Decimal.le_value_iff positive]
  constructor
  · intro notAbove
    rcases le_total (-400) exponent with fine | tooFine
    · have ⟨coefficient, isPower⟩ :=
        @Decimal.exists_value_eq (Decimal.powerOfTen exponent) (-400) fine
      rw [Decimal.value_powerOfTen] at isPower
      rw [← isPower] at notAbove ⊢
      rcases @below_or_above magnitude (-400) ⟨coefficient, -400⟩ rfl with isBelow | isAbove
      · exact isBelow
      · exact absurd (isAbove.trans notAbove) (not_le.mpr (value_lt_above _ _))
    · rw [Decimal.le_value_iff positive, Decimal.leadingExponent_eq]
      have somePlaces := (magnitude.below (-400)).places_pos
      have isGrid : (magnitude.below (-400)).exponent = -400 := rfl
      omega
  · exact fun notAbove => notAbove.trans (value_below_le _ _)

/-- With 17 digits there is always a decimal that reads back. -/
theorem exists_onGrid? : ∃ decimal,
    magnitude.onGrid? .toEven (magnitude.leadingExponent - 16) = some decimal := by
  apply Option.ne_none_iff_exists'.mp
  intro notFound
  have leading := (ten_zpow_le_value_iff notZero).mpr (le_refl magnitude.leadingExponent)
  have notBelow := @not_isNearest_of_onGrid? _ _ (magnitude.below _) notFound rfl
  have notAbove := @not_isNearest_of_onGrid? _ _ (magnitude.above _) notFound rfl
  have step : (magnitude.above (magnitude.leadingExponent - 16)).value =
      (magnitude.below (magnitude.leadingExponent - 16)).value +
        10 ^ (magnitude.leadingExponent - 16) := by
    rw [Decimal.value, Decimal.value, above, below]
    push_cast
    ring
  have isSmall : (10 : ℚ) ^ magnitude.leadingExponent =
      10 ^ 16 * 10 ^ (magnitude.leadingExponent - 16) := by
    rw [← zpow_natCast, ← zpow_add₀ (by norm_num)]
    congr 1
    push_cast
    ring
  have positive := Decimal.ten_zpow_pos (magnitude.leadingExponent - 16)
  have isBelow := value_below_le magnitude (magnitude.leadingExponent - 16)
  have isAbove := value_lt_above magnitude (magnitude.leadingExponent - 16)
  generalize (10 : ℚ) ^ (magnitude.leadingExponent - 16) = size at *
  rcases le_total (2 * magnitude.value) ((magnitude.below (magnitude.leadingExponent - 16)).value +
    (magnitude.above (magnitude.leadingExponent - 16)).value) with nearBelow | nearAbove
  · refine notBelow (isNearest_of_close ?_)
    rw [abs_of_nonpos (by linarith)]
    linarith
  · refine notAbove (isNearest_of_close ?_)
    rw [abs_of_nonneg (by linarith)]
    linarith

/-! No magnitude is in the middle between 9 and 10 times a power of ten if both are read as it:
it would have to be a multiple of 19 units, but only up to 9 units leave so much room. -/

theorem units_le_nine {exponent : Int} (nine : magnitude.IsNearest (9 * 10 ^ exponent))
    (isMiddle : 2 * magnitude.value = 19 * 10 ^ exponent) : magnitude.units ≤ 9 := by
  obtain ⟨rank, isRank⟩ : ∃ rank, magnitude.rank = rank + 1 := by
    apply Nat.exists_eq_succ_of_ne_zero
    intro isZero
    exact (value_pos_iff.mpr notZero).ne' (by
      rw [value, ← unitsAt_rank, isZero]
      exact zero_div _)
  let previous : Magnitude := ⟨rank, by have := magnitude.bounded; omega⟩
  have less : previous.value < magnitude.value :=
    value_lt_value_iff.mpr (isRank ▸ Nat.lt_succ_self rank)
  have room := ((isNearest_iff.mp nine).2 previous less).1
  have ratio : 19 * previous.value ≤ 17 * magnitude.value := by linarith
  rw [value, value, ← mul_div_assoc, ← mul_div_assoc,
    div_le_div_iff_of_pos_right unitsPerOne_cast_pos] at ratio
  have ratio : 19 * previous.units ≤ 17 * magnitude.units := by exact_mod_cast ratio
  rcases exists_binade rank with ⟨doublings, steps, isSplit, least, most⟩
  have isPrevious : previous.units = steps * 2 ^ doublings := by
    change unitsAt rank = _
    rw [isSplit, unitsAt_eq least most.le]
  have isUnits : magnitude.units = (steps + 1) * 2 ^ doublings := by
    rw [← unitsAt_rank, isRank, isSplit, unitsAt_succ_eq least most, unitsAt_eq least most.le,
      Nat.add_one_mul]
  rw [isPrevious, isUnits, ← Nat.mul_assoc, ← Nat.mul_assoc] at ratio
  have few := Nat.le_of_mul_le_mul_right ratio (Nat.two_pow_pos doublings)
  have isFirst : doublings = 0 := by
    refine least.resolve_right fun many => ?_
    have large : 9 ≤ stepsPerBinade := by decide
    omega
  rw [isUnits, isFirst]
  omega

theorem not_middle {exponent : Int} (nine : magnitude.IsNearest (9 * 10 ^ exponent)) :
    2 * magnitude.value ≠ 19 * 10 ^ exponent := by
  intro isMiddle
  have few := units_le_nine notZero nine isMiddle
  have onGrid := value_eq_grid magnitude exponent
  have positive := Decimal.ten_zpow_pos exponent
  have multiple : 2 * (magnitude.gridNumerator exponent : ℚ) = 19 * gridDenominator exponent := by
    refine mul_right_cancel₀ positive.ne' ?_
    rw [mul_assoc, ← onGrid, ← mul_assoc, isMiddle]
    ring
  have multiple : 2 * magnitude.gridNumerator exponent = 19 * gridDenominator exponent := by
    exact_mod_cast multiple
  have coprime : Nat.Coprime 19 (2 * 10 ^ (-exponent).toNat) :=
    Nat.Coprime.mul_right (by decide) (Nat.Coprime.pow_right _ (by decide))
  have divides : 19 ∣ magnitude.units := by
    refine coprime.dvd_of_dvd_mul_left ⟨gridDenominator exponent, ?_⟩
    rw [← multiple, gridNumerator, Nat.mul_assoc, Nat.mul_comm (10 ^ _)]
    rfl
  have noUnits : magnitude.units = 0 := Nat.eq_zero_of_dvd_of_lt divides (by omega)
  refine (value_pos_iff.mpr notZero).ne' ?_
  rw [value, noUnits, Nat.cast_zero, zero_div]

/-! The first grid with a decimal that reads back has the fewest digits. -/

/-- The grid that the shortest decimal is found on, after finer and finer ones. -/
structure IsFoundOn (magnitude : Magnitude) (extraDigits : Nat) (decimal : Decimal) : Prop where
  isPoint : decimal.exponent = magnitude.leadingExponent - extraDigits
  isBest : magnitude.IsBestOnGrid decimal
  noneCoarser : ∀ fewer < extraDigits, ∀ other : Decimal,
    other.exponent = magnitude.leadingExponent - fewer → ¬magnitude.IsNearest other.value

theorem exists_isFoundOn :
    ∃ extraDigits, magnitude.IsFoundOn extraDigits (magnitude.shortest .toEven) := by
  have isSome : (List.range 17).findSome? (fun (extraDigits : Nat) =>
      magnitude.onGrid? .toEven (magnitude.leadingExponent - extraDigits)) ≠ none := by
    have ⟨decimal, found⟩ := exists_onGrid? notZero
    intro notFound
    have last := List.findSome?_eq_none_iff.mp notFound 16 (by decide)
    exact Option.some_ne_none _ (found.symm.trans last)
  have ⟨decimal, found⟩ := Option.ne_none_iff_exists'.mp isSome
  have isShortest : magnitude.shortest .toEven = decimal := by
    rw [shortest, found, Option.getD_some]
  have ⟨front, extraDigits, back, isRange, isFound, noneBefore⟩ :=
    List.findSome?_eq_some_iff.mp found
  have ⟨isPoint, isBest⟩ := isBestOnGrid_of_onGrid? isFound
  rw [isShortest]
  refine ⟨extraDigits, isPoint, isBest, fun fewer less other isOther => ?_⟩
  refine not_isNearest_of_onGrid? (noneBefore fewer ?_) isOther
  have ascending : (front ++ extraDigits :: back).Pairwise (· < ·) :=
    isRange ▸ List.pairwise_lt_range
  have inRange : extraDigits < 17 := by
    rw [← List.mem_range, isRange]
    exact List.mem_append_right _ List.mem_cons_self
  have member : fewer ∈ front ++ extraDigits :: back := by
    rw [← isRange, List.mem_range]
    omega
  rcases List.mem_append.mp member with isBefore | notBefore
  · exact isBefore
  · have behind := (List.pairwise_append.mp ascending).2.1
    rcases List.mem_cons.mp notBefore with rfl | isBehind
    · exact absurd less (Nat.lt_irrefl _)
    · exact absurd ((List.pairwise_cons.mp behind).1 fewer isBehind) (by omega)

end Positive

/-- Every decimal with the digits of a grid is a point of it, or there is a power of ten between
it and the magnitude. -/
theorem isPoint_or_lt_power {decimal : Decimal} {extraDigits : Nat} (notZero : magnitude ≠ zero)
    (readsBack : magnitude.IsNearest decimal.value) (few : decimal.places ≤ extraDigits + 1) :
    magnitude.leadingExponent - extraDigits ≤ decimal.exponent ∨
      decimal.value < 10 ^ magnitude.leadingExponent ∧
        (10 : ℚ) ^ magnitude.leadingExponent ≤ magnitude.value ∧
        magnitude.IsNearest (Decimal.powerOfTen magnitude.leadingExponent).value := by
  rcases le_or_gt (magnitude.leadingExponent - extraDigits) decimal.exponent with isPoint | finer
  · exact .inl isPoint
  · have less : decimal.value < 10 ^ magnitude.leadingExponent :=
      Decimal.value_lt_of_places (by omega)
    have leading := (ten_zpow_le_value_iff notZero).mpr (le_refl magnitude.leadingExponent)
    rw [Decimal.value_powerOfTen]
    exact .inr ⟨less, leading, readsBack.between magnitude.isNearest_value less.le leading⟩

section Found

variable {extraDigits : Nat} {found other : Decimal}
  (isFound : magnitude.IsFoundOn extraDigits found)

include isFound

theorem IsFoundOn.not_isNearest (some : 0 < extraDigits)
    (coarser : magnitude.leadingExponent - extraDigits < other.exponent) :
    ¬magnitude.IsNearest other.value := by
  have ⟨coefficient, isValue⟩ := @Decimal.exists_value_eq other
    (magnitude.leadingExponent - (extraDigits - 1 : Nat)) (by omega)
  rw [← isValue]
  exact isFound.noneCoarser (extraDigits - 1) (by omega) _ rfl

variable (notZero : magnitude ≠ zero) (readsBack : magnitude.IsNearest other.value)

include notZero readsBack

theorem IsFoundOn.fewest : extraDigits < other.places := by
  by_contra notMore
  have somePlaces := other.places_pos
  have ⟨fewer, isFewer⟩ := Nat.exists_eq_succ_of_ne_zero (by omega : extraDigits ≠ 0)
  rcases @isPoint_or_lt_power magnitude other fewer notZero readsBack (by omega) with isPoint |
    ⟨_, _, power⟩
  · exact isFound.not_isNearest (by omega) (by omega) readsBack
  · exact isFound.not_isNearest (by omega) (by change _ < magnitude.leadingExponent; omega) power

/-- A decimal with as many digits is no nearer than a point of the grid. -/
theorem IsFoundOn.exists_point (samePlaces : other.places = extraDigits + 1) :
    ∃ point : Decimal, point.exponent = found.exponent ∧ magnitude.IsNearest point.value ∧
      |point.value - magnitude.value| ≤ |other.value - magnitude.value| ∧
      (|point.value - magnitude.value| = |other.value - magnitude.value| →
        point.value = other.value) := by
  rw [isFound.isPoint]
  rcases isPoint_or_lt_power notZero readsBack samePlaces.le with isPoint | ⟨less, leading, power⟩
  · have ⟨coefficient, isValue⟩ := Decimal.exists_value_eq isPoint
    refine ⟨_, rfl, isValue ▸ readsBack, ?_, fun _ => isValue⟩
    rw [isValue]
  · have ⟨coefficient, isValue⟩ := @Decimal.exists_value_eq
      (Decimal.powerOfTen magnitude.leadingExponent) (magnitude.leadingExponent - extraDigits)
      (by change _ ≤ magnitude.leadingExponent; omega)
    refine ⟨_, rfl, isValue ▸ power, ?_, ?_⟩
    · rw [isValue, Decimal.value_powerOfTen, abs_of_nonpos (by linarith),
        abs_of_nonpos (by linarith)]
      linarith
    · rw [isValue, Decimal.value_powerOfTen, abs_of_nonpos (by linarith),
        abs_of_nonpos (by linarith)]
      intro same
      linarith

end Found

/-! What is found has the digits of its grid, unless it is the next power of ten. -/

section Places

variable {extraDigits : Nat} {found : Decimal}
  (isFound : magnitude.IsFoundOn extraDigits found) (notZero : magnitude ≠ zero)

include isFound

/-- A decimal that reads back is no nearer, if it is a point of the grid. -/
theorem IsFoundOn.le_point {other : Decimal} (isPoint : magnitude.leadingExponent ≤ other.exponent)
    (readsBack : magnitude.IsNearest other.value) :
    |found.value - magnitude.value| ≤ |other.value - magnitude.value| := by
  have ⟨coefficient, isValue⟩ := @Decimal.exists_value_eq other found.exponent
    (by rw [isFound.isPoint]; omega)
  rw [← isValue] at readsBack ⊢
  exact isFound.isBest.least _ readsBack rfl

theorem IsFoundOn.le_power {exponent : Int} (isPoint : magnitude.leadingExponent ≤ exponent)
    (readsBack : magnitude.IsNearest (10 ^ exponent)) :
    |found.value - magnitude.value| ≤ |10 ^ exponent - magnitude.value| := by
  rw [← Decimal.value_powerOfTen] at readsBack ⊢
  exact isFound.le_point isPoint readsBack

include notZero

theorem IsFoundOn.bounds : 10 ^ magnitude.leadingExponent ≤ found.value ∧
    found.value ≤ 10 ^ (magnitude.leadingExponent + 1) := by
  have own := magnitude.isNearest_value
  have readsBack := isFound.isBest.readsBack
  have leading := (ten_zpow_le_value_iff notZero).mpr (le_refl magnitude.leadingExponent)
  have next : magnitude.value < 10 ^ (magnitude.leadingExponent + 1) := by
    rw [← not_le, ten_zpow_le_value_iff notZero]
    omega
  constructor
  · by_contra less
    rw [not_le] at less
    have nearer := isFound.le_power (le_refl _) (readsBack.between own less.le leading)
    rw [abs_of_nonpos (by linarith), abs_of_nonpos (by linarith)] at nearer
    linarith
  · by_contra more
    rw [not_le] at more
    have nearer := isFound.le_power (by omega) (own.between readsBack next.le more.le)
    rw [abs_of_nonneg (by linarith), abs_of_nonneg (by linarith)] at nearer
    linarith

theorem IsFoundOn.places_eq (notPower : found.value ≠ 10 ^ (magnitude.leadingExponent + 1)) :
    found.places = extraDigits + 1 := by
  have ⟨least, most⟩ := isFound.bounds notZero
  have positive := coefficient_pos notZero isFound.isBest.readsBack
  have atLeast := (Decimal.le_value_iff positive).mp least
  have atMost := (Decimal.value_lt_iff positive).mp (lt_of_le_of_ne most notPower)
  rw [Decimal.leadingExponent_eq, isFound.isPoint] at atLeast atMost
  omega

omit notZero in
/-- The next power of ten is found on the first grid. -/
theorem IsFoundOn.isFirst (isPower : found.value = 10 ^ (magnitude.leadingExponent + 1)) :
    extraDigits = 0 := by
  by_contra isLater
  have readsBack := isFound.isBest.readsBack
  rw [isPower, ← Decimal.value_powerOfTen] at readsBack
  refine isFound.not_isNearest (Nat.pos_of_ne_zero isLater) ?_ readsBack
  change _ < magnitude.leadingExponent + 1
  omega

end Places

/-! So it is the shortest decimal, once the zero behind the next power of ten is dropped. -/

section Shortest

variable {extraDigits : Nat} {found decimal : Decimal}
  (isFound : magnitude.IsFoundOn extraDigits found) (notZero : magnitude ≠ zero)

include isFound notZero

/-- A decimal with the value and the digits of what is found is the shortest one, if it is even
where that is. -/
theorem IsFoundOn.isShortest (isValue : decimal.value = found.value)
    (isPlaces : decimal.places = extraDigits + 1)
    (even : ∀ other : Decimal, magnitude.IsNearest other.value → other.places = decimal.places →
      |decimal.value - magnitude.value| = |other.value - magnitude.value| → other ≠ decimal →
        found.coefficient % 2 = 0 → decimal.coefficient % 2 = 0) :
    decimal.IsShortest magnitude := by
  have isBest := isFound.isBest
  constructor
  case readsBack =>
    rw [isValue]
    exact isBest.readsBack
  case fewest =>
    intro other readsBack
    rw [isPlaces]
    exact isFound.fewest notZero readsBack
  case least =>
    intro other readsBack samePlaces
    have ⟨point, isPoint, pointReads, closer, _⟩ :=
      isFound.exists_point notZero readsBack (samePlaces.trans isPlaces)
    rw [isValue]
    exact (isBest.least point pointReads isPoint).trans closer
  case even =>
    intro other readsBack samePlaces isTie
    have ⟨point, isPoint, pointReads, closer, same⟩ :=
      isFound.exists_point notZero readsBack (samePlaces.trans isPlaces)
    have least := isBest.least point pointReads isPoint
    rw [← isValue, isTie] at least
    have isOther := same (le_antisymm closer least)
    by_cases isSame : other = decimal
    · exact .inl isSame
    · refine .inr (even other readsBack samePlaces isTie isSame ?_)
      refine (isBest.even point pointReads isPoint ?_).resolve_left fun isFoundPoint => isSame ?_
      · rw [isOther, ← isValue, isTie]
      · refine Decimal.eq_of_value_eq (coefficient_pos notZero readsBack) ?_ samePlaces
        rw [← isOther, isFoundPoint, isValue]

theorem IsFoundOn.isShortest_of_notPower
    (notPower : found.value ≠ 10 ^ (magnitude.leadingExponent + 1)) :
    found.IsShortest magnitude :=
  isFound.isShortest notZero rfl (isFound.places_eq notZero notPower) fun _ _ _ _ _ even => even

/-- There is no other decimal with one digit that is as near as the next power of ten. -/
theorem IsFoundOn.eq_of_power {other : Decimal} (readsBack : magnitude.IsNearest other.value)
    (isPower : found.value = 10 ^ (magnitude.leadingExponent + 1)) (onePlace : other.places = 1)
    (isTie : |found.value - magnitude.value| = |other.value - magnitude.value|) :
    other.value = found.value := by
  by_contra different
  have isFirst := isFound.isFirst isPower
  have ⟨point, isPoint, pointReads, closer, same⟩ :=
    isFound.exists_point notZero readsBack (by rw [onePlace, isFirst])
  have isOther := same (le_antisymm closer (isTie ▸ isFound.isBest.least point pointReads isPoint))
  have next : magnitude.value < found.value := by
    rw [isPower, ← not_le, ten_zpow_le_value_iff notZero]
    omega
  rw [isFound.isPoint, isFirst, Nat.cast_zero, sub_zero] at isPoint
  have positive := Decimal.ten_zpow_pos magnitude.leadingExponent
  have isTen : found.value = 10 * 10 ^ magnitude.leadingExponent := by
    rw [isPower, zpow_add_one₀ (by norm_num), mul_comm]
  -- The other decimal is as far below the magnitude as the power of ten is above it.
  have below : other.value < magnitude.value := by
    by_contra notBelow
    rw [abs_of_nonneg (by linarith), abs_of_nonneg (by linarith)] at isTie
    exact different (by linarith)
  rw [abs_of_nonneg (by linarith), abs_of_nonpos (by linarith)] at isTie
  have isNine : (Decimal.mk 9 magnitude.leadingExponent).value =
      9 * 10 ^ magnitude.leadingExponent := rfl
  have atMostNine : other.value ≤ 9 * 10 ^ magnitude.leadingExponent := by
    rw [← isOther, ← isPoint]
    refine point.value_le_nine ?_
    rw [isOther, isPoint]
    linarith
  have nine : magnitude.IsNearest (9 * 10 ^ magnitude.leadingExponent) :=
    readsBack.between isFound.isBest.readsBack atMostNine (by linarith)
  have nearer := isFound.le_point (le_refl _) (isNine ▸ nine)
  rw [isNine, abs_of_nonneg (by linarith)] at nearer
  refine not_middle notZero nine (le_antisymm (by linarith) ?_)
  rcases le_total (9 * 10 ^ magnitude.leadingExponent) magnitude.value with notAbove | above
  · rw [abs_of_nonpos (by linarith)] at nearer
    linarith
  · rw [abs_of_nonneg (by linarith)] at nearer
    linarith

theorem IsFoundOn.isShortest_of_power
    (isPower : found.value = 10 ^ (magnitude.leadingExponent + 1)) :
    (Decimal.powerOfTen (magnitude.leadingExponent + 1)).IsShortest magnitude := by
  have isValue := (Decimal.value_powerOfTen (magnitude.leadingExponent + 1)).trans isPower.symm
  have isFirst := isFound.isFirst isPower
  have onePlace := Decimal.places_powerOfTen (magnitude.leadingExponent + 1)
  refine isFound.isShortest notZero isValue (by rw [onePlace, isFirst]) ?_
  intro other readsBack samePlaces isTie different _
  rw [isValue] at isTie
  have same := isFound.eq_of_power notZero readsBack isPower (samePlaces.trans onePlace) isTie
  exact absurd (Decimal.eq_of_value_eq (coefficient_pos notZero readsBack)
    (same.trans isValue.symm) samePlaces) different

end Shortest

/-- What is chosen for a magnitude has the value of its shortest decimal. -/
theorem exists_isShortest (notZero : magnitude ≠ zero) : ∃ decimal : Decimal,
    decimal.IsShortest magnitude ∧ decimal.value = (magnitude.shortest .toEven).value := by
  have ⟨extraDigits, isFound⟩ := exists_isFoundOn notZero
  by_cases isPower : (magnitude.shortest .toEven).value = 10 ^ (magnitude.leadingExponent + 1)
  · exact ⟨_, isFound.isShortest_of_power notZero isPower,
      (Decimal.value_powerOfTen _).trans isPower.symm⟩
  · exact ⟨_, isFound.isShortest_of_notPower notZero isPower, rfl⟩

end Magnitude

/-! There is only one shortest decimal, and it has no trailing zeros. -/

namespace Decimal

variable {decimal other : Decimal} {magnitude : Magnitude}

theorem IsShortest.mod_ten_ne_zero (isShortest : decimal.IsShortest magnitude)
    (notZero : magnitude ≠ .zero) : decimal.coefficient % 10 ≠ 0 := by
  intro isMultiple
  have positive := Magnitude.coefficient_pos notZero isShortest.readsBack
  have ⟨shorter, isShorter⟩ := Nat.dvd_of_mod_eq_zero isMultiple
  rw [Nat.mul_comm] at isShorter
  have sameValue : (Decimal.mk shorter (decimal.exponent + 1)).value = decimal.value := by
    rw [value, value, isShorter, zpow_add_one₀ (by norm_num)]
    push_cast
    ring
  have notMore := isShortest.fewest (Decimal.mk shorter (decimal.exponent + 1))
    (sameValue ▸ isShortest.readsBack)
  rw [places, places, isShorter, decimalDigits_mul_ten (by omega), List.length_append] at notMore
  exact absurd notMore (by simp)

/-- Of two even coefficients the mean is nearer. -/
theorem IsShortest.exponent_ne (isShortest : decimal.IsShortest magnitude)
    (less : decimal.value < other.value)
    (samePlaces : decimal.places = other.places)
    (isMiddle : 2 * magnitude.value = decimal.value + other.value)
    (even : decimal.coefficient % 2 = 0) (otherEven : other.coefficient % 2 = 0) :
    decimal.exponent ≠ other.exponent := by
  intro sameExponent
  have ⟨left, isLeft⟩ := Nat.dvd_of_mod_eq_zero even
  have ⟨right, isRight⟩ := Nat.dvd_of_mod_eq_zero otherEven
  have mean : (Decimal.mk (left + right) other.exponent).value = magnitude.value := by
    have doubled : 2 * magnitude.value =
        2 * (Decimal.mk (left + right) other.exponent).value := by
      rw [isMiddle, value, value, value, isLeft, isRight, sameExponent]
      push_cast
      ring
    linarith
  have readsBack : magnitude.IsNearest (Decimal.mk (left + right) other.exponent).value :=
    mean ▸ magnitude.isNearest_value
  have notBelow := decimal.value_nonneg
  have positive : 0 < (Decimal.mk (left + right) other.exponent).coefficient :=
    value_pos_iff.mp (by linarith)
  have fewest := isShortest.fewest _ readsBack
  have notMore := leadingExponent_mono positive (value_pos_iff.mp (notBelow.trans_lt less))
    (by linarith)
  have onGrid : (Decimal.mk (left + right) other.exponent).exponent = other.exponent := rfl
  rw [leadingExponent_eq, leadingExponent_eq, onGrid] at notMore
  have nearer := isShortest.least _ readsBack (by omega)
  rw [mean, sub_self, abs_zero, abs_nonpos_iff] at nearer
  linarith

/-- Between decimals on different grids there is a power of ten. -/
theorem IsShortest.le_exponent (isShortest : decimal.IsShortest magnitude)
    (otherShortest : other.IsShortest magnitude) (positive : 0 < decimal.coefficient)
    (otherPositive : 0 < other.coefficient) (less : decimal.value < other.value)
    (samePlaces : decimal.places = other.places)
    (isMiddle : 2 * magnitude.value = decimal.value + other.value)
    (otherEven : other.coefficient % 2 = 0) : other.exponent ≤ decimal.exponent := by
  by_contra finer
  rw [not_le] at finer
  have notAbove := (le_value_iff otherPositive).mpr (le_refl other.leadingExponent)
  have above : decimal.value < 10 ^ other.leadingExponent := by
    rw [value_lt_iff positive, leadingExponent_eq, leadingExponent_eq, samePlaces]
    omega
  rw [← value_powerOfTen] at notAbove above
  have readsBack := isShortest.readsBack.between otherShortest.readsBack above.le notAbove
  have onePlace := otherShortest.fewest _ readsBack
  have nearer := otherShortest.least _ readsBack
    (le_antisymm (by rw [places_powerOfTen]; exact other.places_pos) onePlace)
  have isPower : other = powerOfTen other.leadingExponent := by
    refine eq_of_value_eq otherPositive ?_
      (le_antisymm onePlace (by rw [places_powerOfTen]; exact other.places_pos))
    rw [abs_of_nonneg (by linarith)] at nearer
    rcases le_total magnitude.value (powerOfTen other.leadingExponent).value with beyond | notBeyond
    · rw [abs_of_nonneg (by linarith)] at nearer
      linarith
    · rw [abs_of_nonpos (by linarith)] at nearer
      linarith
  rw [isPower] at otherEven
  exact absurd otherEven (by change ¬1 % 2 = 0; decide)

/-- There is only one shortest decimal. -/
theorem IsShortest.unique (notZero : magnitude ≠ .zero) (isShortest : decimal.IsShortest magnitude)
    (otherShortest : other.IsShortest magnitude) : decimal = other := by
  by_contra different
  have samePlaces := le_antisymm (isShortest.fewest other otherShortest.readsBack)
    (otherShortest.fewest decimal isShortest.readsBack)
  have isTie := le_antisymm (isShortest.least other otherShortest.readsBack samePlaces.symm)
    (otherShortest.least decimal isShortest.readsBack samePlaces)
  have even := (isShortest.even other otherShortest.readsBack samePlaces.symm isTie).resolve_left
    (Ne.symm different)
  have otherEven := (otherShortest.even decimal isShortest.readsBack samePlaces
    isTie.symm).resolve_left different
  have positive := Magnitude.coefficient_pos notZero isShortest.readsBack
  have otherPositive := Magnitude.coefficient_pos notZero otherShortest.readsBack
  wlog less : decimal.value < other.value generalizing decimal other
  · have more := lt_of_le_of_ne (not_lt.mp less) fun same =>
      different (eq_of_value_eq positive same.symm samePlaces)
    exact this otherShortest isShortest (Ne.symm different) samePlaces.symm isTie.symm otherEven
      even otherPositive positive more
  have isMiddle := (abs_eq_abs_iff_middle less _).mp isTie
  have order := leadingExponent_mono positive otherPositive less.le
  rw [leadingExponent_eq, leadingExponent_eq, samePlaces] at order
  have notFiner := isShortest.le_exponent otherShortest positive otherPositive less samePlaces
    isMiddle otherEven
  exact isShortest.exponent_ne less samePlaces isMiddle even otherEven (by omega)

/-- What is chosen is the shortest decimal itself, if it has no trailing zeros. -/
theorem isShortest_of_mod_ten_ne_zero (notZero : magnitude ≠ .zero)
    (noZero : (magnitude.shortest .toEven).coefficient % 10 ≠ 0) :
    (magnitude.shortest .toEven).IsShortest magnitude := by
  have ⟨decimal, isShortest, same⟩ := Magnitude.exists_isShortest notZero
  have ⟨count, isCoefficient, isExponent⟩ := exists_mul_pow noZero same
  rcases count with _ | count
  · rwa [eq_of_exponent_eq same.symm (by omega)]
  · have isMultiple := isShortest.mod_ten_ne_zero notZero
    rw [isCoefficient, Nat.pow_succ, ← Nat.mul_assoc, Nat.mul_mod_left] at isMultiple
    exact absurd rfl isMultiple

theorem isShortest_zero : (mk 0 0).IsShortest .zero := by
  have isZero : (mk 0 0).value = Magnitude.zero.value := by
    rw [value, Nat.cast_zero, zero_mul, Magnitude.value_zero]
  constructor
  case readsBack => exact isZero ▸ Magnitude.zero.isNearest_value
  case fewest => exact fun other _ => other.places_pos
  case least =>
    intro other _ _
    rw [isZero, sub_self, abs_zero]
    exact abs_nonneg _
  case even => exact fun _ _ _ _ => .inr rfl

/-! A shortest decimal is on the same side of every power of ten as its magnitude. -/

section Power

variable {exponent : Int} (isShortest : decimal.IsShortest magnitude)

include isShortest

/-- A power of ten that reads back has as few digits, so it is no nearer. -/
theorem IsShortest.le_power (readsBack : magnitude.IsNearest (10 ^ exponent)) :
    |decimal.value - magnitude.value| ≤ |10 ^ exponent - magnitude.value| := by
  rw [← value_powerOfTen] at readsBack ⊢
  refine isShortest.least _ readsBack (le_antisymm ?_ (isShortest.fewest _ readsBack))
  rw [places_powerOfTen]
  exact decimal.places_pos

theorem IsShortest.power_le_value (notAbove : 10 ^ exponent ≤ magnitude.value) :
    10 ^ exponent ≤ decimal.value := by
  by_contra less
  rw [not_le] at less
  have nearer := isShortest.le_power
    (isShortest.readsBack.between magnitude.isNearest_value less.le notAbove)
  rw [abs_of_nonpos (by linarith), abs_of_nonpos (by linarith)] at nearer
  linarith

theorem IsShortest.value_le_power (notBelow : magnitude.value ≤ 10 ^ exponent) :
    decimal.value ≤ 10 ^ exponent := by
  by_contra more
  rw [not_le] at more
  have nearer := isShortest.le_power
    (magnitude.isNearest_value.between isShortest.readsBack notBelow more.le)
  rw [abs_of_nonneg (by linarith), abs_of_nonneg (by linarith)] at nearer
  linarith

/-- A power of ten that is itself a magnitude is not read as another one. -/
theorem IsShortest.value_lt_power {power : Magnitude} (isPower : power.value = 10 ^ exponent)
    (less : magnitude.value < 10 ^ exponent) : decimal.value < 10 ^ exponent := by
  refine lt_of_le_of_ne (isShortest.value_le_power less.le) fun same => less.ne ?_
  have readsBack := isShortest.readsBack
  rw [same, ← isPower] at readsBack
  rw [readsBack.unique power.isNearest_value, isPower]

end Power

end Decimal

namespace Magnitude

/-! Whole numbers as magnitudes. -/

theorem value_of_units {magnitude : Magnitude} {whole : Nat}
    (isUnits : magnitude.units = whole * unitsPerOne) : magnitude.value = whole := by
  rw [value, isUnits, Nat.cast_mul, mul_div_cancel_right₀ _ unitsPerOne_cast_pos.ne']

theorem value_eq_wholePart {magnitude : Magnitude} (isWhole : magnitude.isWhole = true) :
    magnitude.value = magnitude.wholePart :=
  value_of_units (Nat.div_mul_cancel (Nat.dvd_of_mod_eq_zero (eq_of_beq isWhole))).symm

theorem isNearest_ofNat (whole : Nat) : (ofNat whole).IsNearest whole := by
  have nearest := isNearest_nearest Nat.one_pos whole
  rwa [Nat.cast_one, div_one] at nearest

theorem value_ofNat {whole : Nat} (small : whole < 2 * stepsPerBinade) :
    (ofNat whole).value = whole := by
  have units := units_nearest small Nat.one_pos
  rw [Nat.mul_one] at units
  exact value_of_units units

theorem IsNearest.one_le_value {magnitude : Magnitude} {whole : Nat}
    (readsBack : magnitude.IsNearest whole) (positive : 0 < whole) : 1 ≤ magnitude.value := by
  have one : (ofNat 1).value = (1 : Nat) := value_ofNat (by decide)
  have readsOne := (ofNat 1).isNearest_value
  rw [one] at readsOne
  have order := readsOne.mono readsBack (Nat.cast_le.mpr positive)
  rwa [one, Nat.cast_one] at order

theorem IsNearest.ne_zero {magnitude : Magnitude} {whole : Nat}
    (readsBack : magnitude.IsNearest whole) (positive : 0 < whole) : magnitude ≠ zero :=
  value_pos_iff.mp (zero_lt_one.trans_le (readsBack.one_le_value positive))

theorem value_ofNat_two_pow : (ofNat (2 * stepsPerBinade)).value = (2 * stepsPerBinade : Nat) :=
  value_of_units (by decide +kernel)

/-- Powers of ten up to 10^22 are magnitudes. -/
theorem value_ofNat_ten_pow {exponent : Nat} (small : exponent < 23) :
    (ofNat (10 ^ exponent)).value = 10 ^ (exponent : Int) := by
  have every : ∀ exponent : Fin 23,
      (ofNat (10 ^ exponent.val)).units = 10 ^ exponent.val * unitsPerOne := by decide +kernel
  rw [Decimal.ten_zpow_natCast]
  exact value_of_units (every ⟨exponent, small⟩)

theorem exists_unitsPerOne_eq : ∃ places, unitsPerOne = 2 ^ places := by
  rw [unitsPerOne]
  generalize 1074 = places
  exact ⟨places, Nat.one_shiftLeft places⟩

/-- The units of a magnitude, by its binade and its place in it. -/
theorem exists_units_eq (magnitude : Magnitude) : ∃ doublings steps,
    magnitude.rank = doublings * stepsPerBinade + steps ∧
      magnitude.units = steps * 2 ^ doublings ∧ (doublings = 0 ∨ stepsPerBinade ≤ steps) ∧
        steps < 2 * stepsPerBinade := by
  have ⟨doublings, steps, isRank, least, most⟩ := exists_binade magnitude.rank
  refine ⟨doublings, steps, isRank, ?_, least, most⟩
  rw [← unitsAt_rank, isRank, unitsAt_eq least most.le]

/-- Magnitudes with a fraction are below 2^53. -/
theorem value_lt_of_not_whole {magnitude : Magnitude} (fraction : magnitude.isWhole = false) :
    magnitude.value < (2 * stepsPerBinade : Nat) := by
  have ⟨doublings, steps, _, isUnits, _, most⟩ := exists_units_eq magnitude
  have ⟨places, isPower⟩ := exists_unitsPerOne_eq
  have few : doublings < places := by
    by_contra many
    rw [not_lt] at many
    have whole : magnitude.units % unitsPerOne = 0 := by
      rw [isUnits, isPower]
      exact Nat.mod_eq_zero_of_dvd (Nat.dvd_mul_left_of_dvd (Nat.pow_dvd_pow 2 many) steps)
    rw [isWhole, whole] at fraction
    exact absurd fraction (by decide)
  rw [value, div_lt_iff₀ unitsPerOne_cast_pos, isUnits]
  have bounded : steps * 2 ^ doublings < 2 * stepsPerBinade * unitsPerOne := by
    rw [isPower]
    exact Nat.mul_lt_mul_of_lt_of_le most (Nat.pow_le_pow_right (by decide) few.le) (by positivity)
  exact_mod_cast bounded

/-- A magnitude with a fraction is not read from a whole number. -/
theorem isWhole_of_isNearest {magnitude : Magnitude} {whole : Nat}
    (small : magnitude.value < (2 * stepsPerBinade : Nat)) (readsBack : magnitude.IsNearest whole) :
    magnitude.isWhole = true := by
  have less : whole < 2 * stepsPerBinade := by
    by_contra notLess
    have notBelow : (ofNat (2 * stepsPerBinade)).value ≤ whole := by
      rw [value_ofNat_two_pow]
      exact Nat.cast_le.mpr (not_lt.mp notLess)
    have order := (isNearest_value _).mono readsBack notBelow
    rw [value_ofNat_two_pow] at order
    exact absurd small (not_lt.mpr order)
  rw [readsBack.unique (isNearest_ofNat whole), isWhole]
  have units := units_nearest less Nat.one_pos
  rw [Nat.mul_one] at units
  rw [ofNat, units, Nat.mul_mod_left]
  rfl

end Magnitude

namespace Decimal.IsShortest

/-! The digits of a magnitude with a fraction go on behind the point. -/

variable {decimal : Decimal} {magnitude : Magnitude} (isShortest : decimal.IsShortest magnitude)
  (fraction : magnitude.isWhole = false)

include isShortest fraction

theorem exponent_neg : decimal.exponent < 0 := by
  by_contra notNegative
  rw [not_lt] at notNegative
  have ⟨whole, isWhole⟩ := exists_value_eq notNegative
  rw [value, zpow_zero, mul_one] at isWhole
  have readsBack := isShortest.readsBack
  rw [← isWhole] at readsBack
  rw [Magnitude.isWhole_of_isNearest (Magnitude.value_lt_of_not_whole fraction) readsBack]
    at fraction
  exact Bool.noConfusion fraction

theorem value_lt : decimal.value < 10 ^ (16 : Int) := by
  have isPower : (Magnitude.ofNat (10 ^ 16)).value = 10 ^ (16 : Int) :=
    Magnitude.value_ofNat_ten_pow (by decide)
  refine isShortest.value_lt_power isPower
    ((Magnitude.value_lt_of_not_whole fraction).trans_le ?_)
  have small : 2 * Magnitude.stepsPerBinade ≤ 10 ^ 16 := by decide
  exact_mod_cast small

end Decimal.IsShortest

end MetricWatch
