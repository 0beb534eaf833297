import MetricWatch.Clock.Stopwatch
import MetricWatch.Proofs.Clock.TimeOfDay
import MetricWatch.Proofs.Number.NumericPrefix
import MetricWatch.Proofs.Number.Signed
import MetricWatch.Proofs.Number.Sums

namespace MetricWatch

/-! A stopwatch that goes on never shows less. Every rounding keeps the order, except that the
sum of the seconds and their fraction has to be compared with the next second: below 2^53 seconds
it is not beyond that second, and from there on the fraction is lost altogether. -/

namespace Elapsed

/-- All nanoseconds of an elapsed time. -/
def total (elapsed : Elapsed) : Nat :=
  elapsed.seconds * 1000000000 + elapsed.nanoseconds

/-- What is left of an elapsed time in hundredths of milliseconds. The seconds, their fraction, the
sum of both and its product with a thousand are rounded to doubles, and the hundredths to a whole
number. -/
inductive RoundsTo (elapsed : Elapsed) : Nat → Prop
  | of {whole fraction sum product : Magnitude} {hundredths : Nat} :
      whole.IsNearest elapsed.seconds → fraction.IsNearest (elapsed.nanoseconds / 1000000000) →
        sum.IsNearest (whole.value + fraction.value) → product.IsNearest (sum.value * 1000) →
          IsNearestWhole hundredths (product.value * 100) → RoundsTo elapsed hundredths

theorem roundsTo_hundredths (elapsed : Elapsed) :
    elapsed.RoundsTo (hundredths elapsed.inMilliseconds) := by
  have exact : (Magnitude.ofNat elapsed.nanoseconds).value = elapsed.nanoseconds :=
    Magnitude.value_ofNat (Nat.lt_trans elapsed.bounded (by decide))
  have fraction := (Magnitude.ofNat elapsed.nanoseconds).isNearest_divNat
    (show 0 < 1000000000 by decide)
  rw [exact, Nat.cast_ofNat] at fraction
  have product := elapsed.inSeconds.isNearest_timesNat 1000
  rw [Nat.cast_ofNat] at product
  have counted := isNearestWhole_nearestQuotient (elapsed.inMilliseconds.units * 100)
    Magnitude.unitsPerOne_pos
  rw [Nat.cast_mul, mul_div_right_comm, Nat.cast_ofNat] at counted
  exact .of (Magnitude.isNearest_ofNat _) fraction (Magnitude.isNearest_plus _ _) product counted

/-! The order of the sums. -/

section Sum

variable {whole laterWhole fraction laterFraction sum laterSum : Magnitude}

theorem fraction_lt_one {nanoseconds : Nat} (bounded : nanoseconds < 1000000000)
    (isNearest : fraction.IsNearest (nanoseconds / 1000000000)) : fraction.value < 1 := by
  have one : (Magnitude.ofNat 1).value = (1 : Nat) := Magnitude.value_ofNat (by decide)
  let last : Magnitude := ⟨(Magnitude.ofNat 1).rank - 1, by decide +kernel⟩
  have below : last.value < (Magnitude.ofNat 1).value :=
    Magnitude.value_lt_value_iff.mpr (by decide +kernel)
  have enough : 999999999 * Magnitude.unitsPerOne ≤ last.units * 1000000000 := by
    decide +kernel
  have most := Nat.mul_le_mul_right Magnitude.unitsPerOne (Nat.le_of_lt_succ bounded)
  have notAbove : (nanoseconds / 1000000000 : ℚ) ≤ last.value := by
    rw [Magnitude.value, div_le_div_iff₀ (by norm_num) Magnitude.unitsPerOne_cast_pos]
    exact_mod_cast most.trans enough
  rw [one, Nat.cast_one] at below
  exact (isNearest.mono last.isNearest_value notAbove).trans_lt below

/-- The fraction of a second does not lead beyond the next second. -/
theorem sum_le_later {seconds laterSeconds : Nat} (less : seconds < laterSeconds)
    (isWhole : whole.IsNearest seconds) (isLaterWhole : laterWhole.IsNearest laterSeconds)
    (small : fraction.value < 1) (isSum : sum.IsNearest (whole.value + fraction.value)) :
    sum.value ≤ laterWhole.value := by
  rcases Nat.lt_or_ge seconds (2 * Magnitude.stepsPerBinade) with exact | large
  · have isNext : (Magnitude.ofNat (seconds + 1)).value = (seconds + 1 : Nat) := by
      rcases Nat.lt_or_eq_of_le (show seconds + 1 ≤ _ from exact) with notLast | isLast
      · exact Magnitude.value_ofNat notLast
      · rw [isLast]
        exact Magnitude.value_ofNat_two_pow
    have isCount : whole.value = seconds := by
      rw [isWhole.unique (Magnitude.isNearest_ofNat seconds), Magnitude.value_ofNat exact]
    have notBeyond : whole.value + fraction.value ≤ (Magnitude.ofNat (seconds + 1)).value := by
      rw [isNext, isCount, Nat.cast_add, Nat.cast_one]
      linarith
    have next : ((seconds + 1 : Nat) : ℚ) ≤ laterSeconds := Nat.cast_le.mpr less
    exact (isSum.mono (Magnitude.isNearest_value _) notBeyond).trans
      ((Magnitude.isNearest_ofNat _).mono isLaterWhole next)
  · have notBelow := (Magnitude.isNearest_ofNat _).mono isWhole (Nat.cast_le.mpr large)
    rw [Magnitude.value_ofNat_two_pow] at notBelow
    have isLost := Magnitude.isNearest_add_of_large notBelow fraction.value_nonneg small
    rw [isSum.unique isLost]
    exact isWhole.mono isLaterWhole (Nat.cast_le.mpr less.le)

end Sum

variable {earlier later : Elapsed}

theorem lt_or_eq_of_total_le (order : earlier.total ≤ later.total) :
    earlier.seconds < later.seconds ∨
      earlier.seconds = later.seconds ∧ earlier.nanoseconds ≤ later.nanoseconds := by
  have bounded := earlier.bounded
  have laterBounded := later.bounded
  simp only [total] at order
  omega

/-- Rounding keeps the order of elapsed times. -/
theorem RoundsTo.mono {hundredths laterHundredths : Nat} (rounds : earlier.RoundsTo hundredths)
    (laterRounds : later.RoundsTo laterHundredths) (order : earlier.total ≤ later.total) :
    hundredths ≤ laterHundredths := by
  cases rounds with
  | @of whole fraction sum product _ isWhole isFraction isSum isProduct isCount =>
      cases laterRounds with
      | @of laterWhole laterFraction laterSum laterProduct _ isLaterWhole isLaterFraction isLaterSum
          isLaterProduct isLaterCount =>
          have sums : sum.value ≤ laterSum.value := by
            rcases lt_or_eq_of_total_le order with less | ⟨same, notMore⟩
            · have small := fraction_lt_one earlier.bounded isFraction
              have further := laterWhole.isNearest_value.mono isLaterSum
                (le_add_of_nonneg_right laterFraction.value_nonneg)
              exact (sum_le_later less isWhole isLaterWhole small isSum).trans further
            · have scaled : (earlier.nanoseconds / 1000000000 : ℚ) ≤
                  later.nanoseconds / 1000000000 :=
                div_le_div_of_nonneg_right (Nat.cast_le.mpr notMore) (by norm_num)
              rw [same] at isWhole
              rw [isWhole.unique isLaterWhole] at isSum
              exact isSum.mono isLaterSum
                (add_le_add_right (isFraction.mono isLaterFraction scaled) _)
          have products := isProduct.mono isLaterProduct
            (mul_le_mul_of_nonneg_right sums (by norm_num))
          exact isCount.mono isLaterCount (mul_le_mul_of_nonneg_right products (by norm_num))

/-! The text. -/

/-- Digits, a point and two more digits, read as a decimal number. -/
inductive Reads : List Char → ℚ → Prop
  | of {whole fraction : List Char} : whole ≠ [] → Json.Grammar.Digits whole →
      Json.Grammar.Digits fraction → fraction.length = 2 →
        Reads (whole ++ '.' :: fraction) (NumberWord.numeralValue whole fraction 0)

theorem Reads.unique {text : List Char} {number other : ℚ} (reads : Reads text number)
    (readsOther : Reads text other) : number = other := by
  have isWord : ∀ {number : ℚ}, Reads text number →
      NumberWord.Unsigned (.finite number) text := by
    intro number reads
    cases reads with
    | of notEmpty areDigits furtherDigits _ =>
        have isUnsigned := NumberWord.Unsigned.numeral
          (.pointed notEmpty areDigits furtherDigits) .absent
        rwa [List.append_nil] at isUnsigned
  exact NumberWord.Size.finite.inj ((isWord reads).unique (isWord readsOther))

theorem reads_text (elapsed : Elapsed) :
    Reads elapsed.text.toList ((hundredths elapsed.inMilliseconds : ℚ) / 100) := by
  rw [text]
  generalize hundredths elapsed.inMilliseconds = count
  have areTwo := isTwoDigits_twoDigits (Nat.mod_lt count (show 0 < 100 by decide))
  have isText : (decimalText (count / 100) ++ "." ++ String.ofList (decimals count)).toList =
      decimalDigits (count / 100) ++ '.' :: twoDigits (count % 100) := by
    simp only [String.toList_append, decimalText, String.toList_ofList, List.append_assoc]
    rfl
  have isValue : (count : ℚ) / 100 =
      NumberWord.numeralValue (decimalDigits (count / 100)) (twoDigits (count % 100)) 0 := by
    have divided : ((100 * (count / 100) + count % 100 : Nat) : ℚ) = count :=
      congrArg Nat.cast (Nat.div_add_mod count 100)
    rw [NumberWord.numeralValue, digitsValue_decimalDigits, areTwo.value, areTwo.length, zpow_zero,
      mul_one, ← divided]
    push_cast
    ring
  rw [isText, isValue]
  exact .of Nat.toDigits_ne_nil (fun _ => isDecimalDigit_of_mem)
    (List.all_eq_true.mp areTwo.areDigits) areTwo.length

/-- What a stopwatch shows for an elapsed time. Its text can be read as one decimal number, which is
what the roundings leave. -/
structure Shows (elapsed : Elapsed) (shown : ℚ) : Prop where
  isRead : Reads elapsed.text.toList shown
  nothingElse : ∀ other, Reads elapsed.text.toList other → other = shown
  isRounded : ∃ hundredths, elapsed.RoundsTo hundredths ∧ shown = hundredths / 100

theorem shows_text (elapsed : Elapsed) :
    elapsed.Shows ((hundredths elapsed.inMilliseconds : ℚ) / 100) where
  isRead := elapsed.reads_text
  nothingElse := fun _ reads => reads.unique elapsed.reads_text
  isRounded := ⟨_, elapsed.roundsTo_hundredths, rfl⟩

/-- After more time a stopwatch does not show less. -/
theorem exists_shows_le (order : earlier.total ≤ later.total) :
    ∃ first second, earlier.Shows first ∧ later.Shows second ∧ first ≤ second := by
  have counts : (hundredths earlier.inMilliseconds : ℚ) ≤ hundredths later.inMilliseconds :=
    Nat.cast_le.mpr (earlier.roundsTo_hundredths.mono later.roundsTo_hundredths order)
  exact ⟨_, _, earlier.shows_text, later.shows_text,
    div_le_div_of_nonneg_right counts (by norm_num)⟩

/-- The last nanosecond of a second behind 2^53, and the next second, which is no double. -/
theorem exists_shows_le_beyond_doubles :
    (mk 9007199254740992 999999999 (by decide)).total ≤
        (mk 9007199254740993 0 (by decide)).total ∧
      ∃ first second, (mk 9007199254740992 999999999 (by decide)).Shows first ∧
        (mk 9007199254740993 0 (by decide)).Shows second ∧ first ≤ second := by
  have order : (mk 9007199254740992 999999999 (by decide)).total ≤
      (mk 9007199254740993 0 (by decide)).total := by decide
  exact ⟨order, exists_shows_le order⟩

end Elapsed

end MetricWatch
