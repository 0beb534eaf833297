import MetricWatch.Json.Number
import MetricWatch.Proofs.Number.DecimalValue
import MetricWatch.Proofs.Number.Scaled

namespace MetricWatch.Json.Spelling

/-! The numbers that spellings are read as. A double is not always the one nearest to the decimal
that is spelled: only the first digits count, and the power of ten is multiplied or divided by in
doubles. It is the nearest one where few digits and small powers are spelled. -/

/-- Digits behind others are taken up as long as all of them together stay below 2^64. -/
structure TakesUp (front digits taken left : List Char) : Prop where
  split : digits = taken ++ left
  fits : digitsValue (front ++ taken) < 2 ^ 64
  noMore : ∀ digit rest, left = digit :: rest → 2 ^ 64 ≤ digitsValue (front ++ taken ++ [digit])

/-- The whole number that is taken up of the digits, and the power of ten that belongs to its last
digit. What is left of the digits before the point are places, and what is left behind it is
lost. -/
inductive HasSignificand (spelling : Spelling) : Nat → Int → Prop
  | of {taken left takenBehind leftBehind : List Char}
      (whole : TakesUp [] spelling.whole taken left)
      (fraction : TakesUp taken (spelling.fraction.getD []) takenBehind leftBehind) :
      HasSignificand spelling (digitsValue (taken ++ takenBehind))
        ((left.length : Int) - takenBehind.length)

/-- The size of the double that is read. Exponents of more than 31 bits are not computed with. -/
inductive ReadsSize (spelling : Spelling) : Magnitude → Prop
  | scaled {count : Nat} {places : Int} {size magnitude : Magnitude}
      (digits : spelling.HasSignificand count places)
      (computed : (spelling.exponent.getD 0).natAbs < 2 ^ 31) (isSize : size.IsNearest count)
      (scales : size.Scales (places + spelling.exponent.getD 0) magnitude) :
      ReadsSize spelling magnitude
  | vanishing {count : Nat} {places : Int} (digits : spelling.HasSignificand count places)
      (beyond : 2 ^ 31 ≤ (spelling.exponent.getD 0).natAbs)
      (isSmall : count = 0 ∨ spelling.exponent.getD 0 < 0) : ReadsSize spelling .zero

/-- Whole numbers of 64 bits are kept as they are, but a zero with a minus is none of them. -/
inductive ReadsWhole (spelling : Spelling) : Int → Prop
  | natural (noFraction : spelling.fraction = none) (noExponent : spelling.exponent = none)
      (positive : spelling.negative = false) (fits : digitsValue spelling.whole < 2 ^ 64) :
      ReadsWhole spelling (digitsValue spelling.whole)
  | negative (noFraction : spelling.fraction = none) (noExponent : spelling.exponent = none)
      (negative : spelling.negative = true) (notZero : 0 < digitsValue spelling.whole)
      (fits : digitsValue spelling.whole ≤ 2 ^ 63) :
      ReadsWhole spelling (-(digitsValue spelling.whole : Int))

/-- The number that a spelling is read as, if it is within the limits. -/
inductive Reads (spelling : Spelling) : Number → Prop
  | whole {value : Int} (isWhole : spelling.ReadsWhole value) : Reads spelling (.whole value)
  | real {magnitude : Magnitude} (notWhole : ∀ value, ¬spelling.ReadsWhole value)
      (isSize : spelling.ReadsSize magnitude) :
      Reads spelling (.real (.number spelling.negative magnitude))

/-! Digits that are taken up. -/

theorem exists_takesUp (digits : List Char) :
    ∀ {front : List Char}, digitsValue front < 2 ^ 64 → ∃ taken left,
      takeUp (digitsValue front) digits = (digitsValue (front ++ taken), left) ∧
        TakesUp front digits taken left := by
  induction digits with
  | nil =>
      intro front fits
      refine ⟨[], [], ?_, rfl, ?_, nofun⟩
      · rw [List.append_nil]
        rfl
      · rwa [List.append_nil]
  | cons digit digits induction =>
      intro front fits
      rw [takeUp, ← digitsValue_concat]
      by_cases fitsToo : digitsValue (front ++ [digit]) < UInt64.size
      · rcases induction fitsToo with ⟨taken, left, isTaken, split, fits, noMore⟩
        rw [List.append_assoc, List.singleton_append] at isTaken fits noMore
        exact ⟨digit :: taken, left, (if_pos fitsToo).trans isTaken, congrArg (digit :: ·) split,
          fits, noMore⟩
      · refine ⟨[], digit :: digits, ?_, rfl, ?_, ?_⟩
        · rw [List.append_nil]
          exact if_neg fitsToo
        · rwa [List.append_nil]
        · rintro _ _ ⟨⟩
          rw [List.append_nil]
          exact Nat.not_lt.mp fitsToo

namespace TakesUp

variable {front digits taken left otherTaken otherLeft : List Char}

/-- Nothing that is left would still fit. -/
theorem eq_nil (takes : TakesUp front digits taken left) {more rest : List Char}
    (isLeft : left = more ++ rest) (fits : digitsValue (front ++ (taken ++ more)) < 2 ^ 64) :
    more = [] := by
  cases more with
  | nil => rfl
  | cons digit more =>
      have notBelow := takes.noMore digit (more ++ rest) isLeft
      have longer := digitsValue_le_append (front ++ taken ++ [digit]) more
      have isWhole : front ++ (taken ++ digit :: more) = front ++ taken ++ [digit] ++ more := by
        simp only [List.append_assoc, List.singleton_append]
      rw [isWhole] at fits
      exact absurd fits (Nat.not_lt.mpr (notBelow.trans longer))

theorem unique (takes : TakesUp front digits taken left)
    (other : TakesUp front digits otherTaken otherLeft) :
    taken = otherTaken ∧ left = otherLeft := by
  have same : taken ++ left = otherTaken ++ otherLeft := takes.split.symm.trans other.split
  rcases List.append_eq_append_iff.mp same with ⟨more, isOther, isLeft⟩ | ⟨more, isTaken, isLeft⟩
  · have isNil := takes.eq_nil isLeft (isOther ▸ other.fits)
    subst isNil
    rw [List.append_nil] at isOther
    exact ⟨isOther.symm, isLeft⟩
  · have isNil := other.eq_nil isLeft (isTaken ▸ takes.fits)
    subst isNil
    rw [List.append_nil] at isTaken
    exact ⟨isTaken, isLeft.symm⟩

/-- Where all digits fit they are all taken up. -/
theorem of_lt (fits : digitsValue (front ++ digits) < 2 ^ 64) : TakesUp front digits digits [] :=
  ⟨(List.append_nil digits).symm, fits, nofun⟩

end TakesUp

variable {spelling : Spelling}

theorem hasSignificand (spelling : Spelling) :
    spelling.HasSignificand spelling.significand.1 spelling.significand.2 := by
  rcases exists_takesUp spelling.whole (show digitsValue [] < 2 ^ 64 by decide) with
    ⟨taken, left, isTaken, takes⟩
  have fits : digitsValue taken < 2 ^ 64 := takes.fits
  rcases exists_takesUp (spelling.fraction.getD []) fits with
    ⟨takenBehind, leftBehind, isTakenBehind, takesBehind⟩
  have isSignificand : spelling.significand =
      (digitsValue (taken ++ takenBehind), (left.length : Int) - takenBehind.length) := by
    have isLength := congrArg List.length takesBehind.split
    rw [List.length_append] at isLength
    change takeUp 0 spelling.whole = _ at isTaken
    rw [significand, isTaken]
    simp only [List.nil_append, isTakenBehind, Prod.mk.injEq, true_and]
    omega
  rw [isSignificand]
  exact .of takes takesBehind

theorem HasSignificand.unique {count otherCount : Nat} {places otherPlaces : Int}
    (digits : spelling.HasSignificand count places)
    (otherDigits : spelling.HasSignificand otherCount otherPlaces) :
    count = otherCount ∧ places = otherPlaces := by
  cases digits with
  | of whole fraction =>
      cases otherDigits with
      | of otherWhole otherFraction =>
          obtain ⟨rfl, rfl⟩ := whole.unique otherWhole
          obtain ⟨rfl, rfl⟩ := fraction.unique otherFraction
          exact ⟨rfl, rfl⟩

/-! A spelling is read as it should be. -/

theorem magnitude?_eq_some_iff {magnitude : Magnitude} :
    spelling.magnitude? = some magnitude ↔ spelling.ReadsSize magnitude := by
  have digits := spelling.hasSignificand
  rw [magnitude?]
  generalize spelling.significand = parts at digits
  dsimp only
  constructor
  · intro isRead
    split at isRead
    · rename_i computed
      exact .scaled digits (Nat.lt_succ_of_le computed) (Magnitude.isNearest_ofNat parts.1)
        (Magnitude.scale?_eq_some_iff.mp isRead)
    · rename_i beyond
      split at isRead
      · rename_i isSmall
        cases isRead
        exact .vanishing digits (Nat.not_le.mp beyond) isSmall
      · cases isRead
  · intro reads
    cases reads with
    | scaled otherDigits computed isSize scales =>
        obtain ⟨rfl, rfl⟩ := digits.unique otherDigits
        rw [isSize.unique (Magnitude.isNearest_ofNat parts.1)] at scales
        exact (if_pos (Nat.le_of_lt_succ computed)).trans scales.scale?_eq
    | vanishing otherDigits beyond isSmall =>
        obtain ⟨rfl, rfl⟩ := digits.unique otherDigits
        exact (if_neg (Nat.not_le.mpr beyond)).trans (if_pos isSmall)

theorem ReadsWhole.number_eq {value : Int} (isWhole : spelling.ReadsWhole value) :
    spelling.number = .ok (.whole value) := by
  cases isWhole with
  | natural noFraction noExponent positive fits =>
      rw [number, noFraction, noExponent, positive]
      exact if_pos fits
  | negative noFraction noExponent negative notZero fits =>
      have isInteger : (decide (0 < digitsValue spelling.whole) &&
          decide (digitsValue spelling.whole ≤ UInt64.size / 2)) = true := by
        rw [Bool.and_eq_true, decide_eq_true_eq, decide_eq_true_eq]
        exact ⟨notZero, fits⟩
      rw [number, noFraction, noExponent, negative]
      exact if_pos isInteger

theorem number_eq_real (notWhole : ∀ value, ¬spelling.ReadsWhole value) :
    spelling.number = spelling.real := by
  rw [number]
  split
  · rename_i isInteger
    rw [Bool.and_eq_true, Option.isNone_iff_eq_none, Option.isNone_iff_eq_none] at isInteger
    have ⟨noFraction, noExponent⟩ := isInteger
    dsimp only
    split
    · rename_i negative
      split
      · rename_i fits
        rw [Bool.and_eq_true, decide_eq_true_eq, decide_eq_true_eq] at fits
        exact absurd (.negative noFraction noExponent negative fits.1 fits.2) (notWhole _)
      · rfl
    · rename_i positive
      split
      · rename_i fits
        exact absurd (.natural noFraction noExponent (eq_false_of_ne_true positive) fits)
          (notWhole _)
      · rfl
  · rfl

theorem real_eq_ok_iff {number : Number} : spelling.real = .ok number ↔
    ∃ magnitude, spelling.ReadsSize magnitude ∧
      number = .real (.number spelling.negative magnitude) := by
  simp only [← magnitude?_eq_some_iff]
  rw [real]
  cases spelling.magnitude? with
  | none => exact iff_of_false nofun nofun
  | some magnitude =>
      constructor
      · rintro ⟨⟩
        exact ⟨magnitude, rfl, rfl⟩
      · rintro ⟨_, ⟨⟩, rfl⟩
        rfl

/-- Reading a spelling gives the number that it is read as. -/
theorem number_eq_ok_iff {number : Number} : spelling.number = .ok number ↔
    spelling.Reads number := by
  by_cases isWhole : ∃ value, spelling.ReadsWhole value
  · rcases isWhole with ⟨value, isWhole⟩
    rw [isWhole.number_eq]
    constructor
    · rintro ⟨⟩
      exact .whole isWhole
    · intro reads
      cases reads with
      | whole otherWhole => rw [← isWhole.number_eq, otherWhole.number_eq]
      | real notWhole => exact absurd isWhole (notWhole value)
  · have notWhole := not_exists.mp isWhole
    rw [number_eq_real notWhole, real_eq_ok_iff]
    constructor
    · rintro ⟨magnitude, isSize, rfl⟩
      exact .real notWhole isSize
    · intro reads
      cases reads with
      | whole isWhole => exact absurd isWhole (notWhole _)
      | real _ isSize => exact ⟨_, isSize, rfl⟩

theorem HasSignificand.lt {count : Nat} {places : Int}
    (digits : spelling.HasSignificand count places) : count < 2 ^ 64 := by
  cases digits with
  | of _ fraction => exact fraction.fits

theorem ne_infinity_of_isNearest {size : Magnitude} {count : Nat} (isSize : size.IsNearest count)
    (fits : count < 2 ^ 64) : size ≠ .infinity := by
  have notMore : (count : ℚ) ≤ (10 ^ 20 : Nat) :=
    Nat.cast_le.mpr (fits.le.trans (show 2 ^ 64 ≤ 10 ^ 20 by decide))
  exact isSize.ne_infinity_of_le (Magnitude.isNearest_ofNat _) notMore (by decide +kernel)

theorem ReadsSize.ne_infinity {magnitude : Magnitude} (isSize : spelling.ReadsSize magnitude) :
    magnitude ≠ .infinity := by
  cases isSize with
  | scaled digits _ isCount scales =>
      exact scales.ne_infinity (ne_infinity_of_isNearest isCount digits.lt)
  | vanishing => decide

/-! The decimal that is spelled. -/

def decimal (spelling : Spelling) : Decimal :=
  let fraction := spelling.fraction.getD []
  { coefficient := digitsValue (spelling.whole ++ fraction)
    exponent := spelling.exponent.getD 0 - (fraction.length : Int) }

namespace ReadsWhole

variable {value : Int} (isWhole : spelling.ReadsWhole value)

include isWhole

theorem natAbs_lt : value.natAbs < 2 ^ 64 := by
  cases isWhole with
  | natural _ _ _ fits => rwa [Int.natAbs_natCast]
  | negative _ _ _ _ fits =>
      rw [Int.natAbs_neg, Int.natAbs_natCast]
      exact fits.trans_lt (by decide)

theorem value_decimal : spelling.decimal.value = value.natAbs := by
  have isSize (noFraction : spelling.fraction = none) (noExponent : spelling.exponent = none) :
      spelling.decimal.value = digitsValue spelling.whole := by
    simp [Decimal.value, decimal, noFraction, noExponent]
  cases isWhole with
  | natural noFraction noExponent =>
      rw [isSize noFraction noExponent, Int.natAbs_natCast]
  | negative noFraction noExponent =>
      rw [isSize noFraction noExponent, Int.natAbs_neg, Int.natAbs_natCast]

theorem toBinary64_eq :
    (Number.whole value).toBinary64 = .number spelling.negative (.ofNat value.natAbs) := by
  cases isWhole with
  | natural _ _ positive =>
      rw [positive]
      exact congrArg (Binary64.number · _) (decide_eq_false (Int.natCast_nonneg _).not_gt)
  | negative _ _ negative notZero =>
      rw [negative]
      exact congrArg (Binary64.number · _) (decide_eq_true (by omega))

end ReadsWhole

/-- Spellings that are rounded once at most: whole numbers of 64 bits, and few digits with a small
power of ten, for both of which there are doubles. -/
inductive RoundsOnce (spelling : Spelling) : Prop
  | whole {value : Int} (isWhole : spelling.ReadsWhole value)
  | short (fewDigits : spelling.decimal.coefficient < 2 ^ 53)
      (smallPower : spelling.decimal.exponent.natAbs ≤ 22)

theorem ReadsSize.isNearest_of_short {magnitude : Magnitude}
    (isSize : spelling.ReadsSize magnitude) (fewDigits : spelling.decimal.coefficient < 2 ^ 53)
    (smallPower : spelling.decimal.exponent.natAbs ≤ 22) :
    magnitude.IsNearest spelling.decimal.value := by
  have fits : spelling.decimal.coefficient < 2 ^ 64 := fewDigits.trans (by decide)
  have wholeFits : digitsValue ([] ++ spelling.whole) < 2 ^ 64 :=
    (digitsValue_le_append spelling.whole _).trans_lt fits
  have digits : spelling.HasSignificand spelling.decimal.coefficient
      (-(spelling.fraction.getD []).length) := by
    have all := HasSignificand.of (.of_lt wholeFits) (.of_lt fits)
    rwa [List.length_nil, Int.natCast_zero, Int.zero_sub] at all
  have isExponent : -((spelling.fraction.getD []).length : Int) + spelling.exponent.getD 0 =
      spelling.decimal.exponent :=
    Int.add_comm _ _
  cases isSize with
  | scaled otherDigits _ isCount scales =>
      obtain ⟨rfl, rfl⟩ := digits.unique otherDigits
      rw [isExponent] at scales
      exact scales.isNearest_of_exact isCount fewDigits smallPower
  | vanishing otherDigits beyond isSmall =>
      obtain ⟨rfl, rfl⟩ := digits.unique otherDigits
      rcases isSmall with isZero | isNegative
      · rw [Decimal.value, isZero, Nat.cast_zero, zero_mul, ← Magnitude.value_zero]
        exact Magnitude.isNearest_value _
      · omega

/-- A number that is rounded once at most is the double nearest to what is spelled. -/
theorem Reads.exists_isNearest {number : Number} (reads : spelling.Reads number)
    (once : spelling.RoundsOnce) :
    ∃ magnitude : Magnitude, number.toBinary64 = .number spelling.negative magnitude ∧
      magnitude.IsNearest spelling.decimal.value := by
  cases reads with
  | whole isWhole =>
      refine ⟨_, isWhole.toBinary64_eq, ?_⟩
      rw [isWhole.value_decimal]
      exact Magnitude.isNearest_ofNat _
  | real notWhole isSize =>
      cases once with
      | whole isWhole => exact absurd isWhole (notWhole _)
      | short fewDigits smallPower =>
          exact ⟨_, rfl, isSize.isNearest_of_short fewDigits smallPower⟩

end MetricWatch.Json.Spelling
