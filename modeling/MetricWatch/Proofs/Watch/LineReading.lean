import MetricWatch.Proofs.Clock.TimeOfDay
import MetricWatch.Proofs.Number.ReadBack
import MetricWatch.Proofs.Text.Parts
import MetricWatch.Watch.Report

namespace MetricWatch

/-! A printed line can be read back, although its labels are printed as they are: what stands
before them has a fixed width, and behind them there is no further brace. -/

/-- What a text stands for that a number has been written in. -/
def readWritten (text : List Char) : Binary64 :=
  if text = ['i', 'n', 'f'] then .infinity
  else if text = ['-', 'i', 'n', 'f'] then .negativeInfinity
  else readNumericPrefix text

theorem readWritten_characters (style : DecimalStyle) (value : Binary64) :
    readWritten (style.characters value) = value := by
  cases finite : value.isFinite with
  | true =>
      have readsBack := style.readNumericPrefix_characters finite
      have notWord : ∀ word : List Char, readNumericPrefix word = .nan →
          style.characters value ≠ word := by
        rintro _ isNan rfl
        rw [← readsBack, isNan] at finite
        cases finite
      rw [readWritten, if_neg (notWord _ (by decide)), if_neg (notWord _ (by decide)), readsBack]
  | false =>
      cases value with
      | nan =>
          change readWritten ['N', 'a', 'N'] = .nan
          decide
      | number negative magnitude =>
          rw [Binary64.isFinite, Bool.not_eq_false'] at finite
          rw [DecimalStyle.characters, finite, if_pos rfl, Magnitude.isInfinite_iff.mp finite]
          cases negative <;> decide

/-! The clock of a line. -/

theorem exists_twoDigits {value : Nat} (small : value < 100) :
    ∃ tens ones, twoDigits value = [tens, ones] ∧ digitsValue [tens, ones] = value := by
  have areTwoDigits := isTwoDigits_twoDigits small
  have ⟨tens, ones, isText⟩ := List.length_eq_two.mp areTwoDigits.length
  exact ⟨tens, ones, isText, isText ▸ areTwoDigits.value⟩

/-- The second of the day that a clock shows, and whether the clock goes on beyond it. -/
def readClock (text : List Char) : Nat × Bool :=
  let shown := digitsValue (text.drop 6)
  (digitsValue (text.take 2) * 3600 + digitsValue ((text.drop 3).take 2) * 60 +
    (if shown = 60 then 59 else shown), shown == 60)

theorem readClock_clockText {hour minute second : Nat} (smallHour : hour < 100)
    (smallMinute : minute < 100) (smallSecond : second < 100) :
    (clockText hour minute second).length = 8 ∧
      readClock (clockText hour minute second) =
        (hour * 3600 + minute * 60 + (if second = 60 then 59 else second), second == 60) := by
  have ⟨hourTens, hourOnes, hourText, isHour⟩ := exists_twoDigits smallHour
  have ⟨minuteTens, minuteOnes, minuteText, isMinute⟩ := exists_twoDigits smallMinute
  have ⟨secondTens, secondOnes, secondText, isSecond⟩ := exists_twoDigits smallSecond
  have isText : clockText hour minute second =
      [hourTens, hourOnes, ':', minuteTens, minuteOnes, ':', secondTens, secondOnes] := by
    rw [clockText, hourText, minuteText, secondText]
    rfl
  rw [isText, ← isHour, ← isMinute, ← isSecond]
  exact ⟨rfl, rfl⟩

theorem Instant.secondOfDay_utc (instant : Instant) :
    instant.secondOfDay utc = (instant.seconds % secondsPerDay).toNat := by
  rw [secondOfDay, utc, Offset.utc, Int.add_zero]

/-- A clock in UTC shows the second of the day, and the sixtieth one of a minute if it is a leap
second. -/
theorem readClock_timeOfDay (instant : Instant) :
    (instant.timeOfDay utc).toList.length = 8 ∧
      readClock (instant.timeOfDay utc).toList =
        ((instant.seconds % secondsPerDay).toNat, instant.isLeap) := by
  have isSecond := instant.secondOfDay_utc
  have inDay : instant.secondOfDay utc < 86400 := by
    rw [isSecond, secondsPerDay]
    omega
  have shown : instant.secondOfDay utc % 60 + (if instant.isLeap then 1 else 0) < 100 := by
    split <;> omega
  have isText : (instant.timeOfDay utc).toList =
      clockText (instant.secondOfDay utc / 3600) (instant.secondOfDay utc / 60 % 60)
        (instant.secondOfDay utc % 60 + (if instant.isLeap then 1 else 0)) :=
    String.toList_ofList
  have smallHour : instant.secondOfDay utc / 3600 < 100 := by omega
  have smallMinute : instant.secondOfDay utc / 60 % 60 < 100 := by omega
  obtain ⟨isLength, isRead⟩ := readClock_clockText smallHour smallMinute shown
  rw [isText, isRead, ← isSecond]
  refine ⟨isLength, ?_⟩
  cases isLeap : instant.isLeap with
  | true =>
      have atMinuteEnd := instant.leapAtMinuteEnd (of_decide_eq_true isLeap)
      have isLast : instant.secondOfDay utc % 60 = 59 := by
        rw [isSecond, secondsPerDay]
        omega
      rw [if_pos rfl, isLast, if_pos rfl]
      exact Prod.ext (by dsimp only; omega) rfl
  | false =>
      have notSixty : instant.secondOfDay utc % 60 ≠ 60 := by omega
      rw [if_neg Bool.false_ne_true, Nat.add_zero, if_neg notSixty, beq_false_of_ne notSixty]
      exact Prod.ext (by dsimp only; omega) rfl

/-- The order of moments, by their seconds and then by their nanoseconds. -/
def Instant.Precedes (left right : Instant) : Prop :=
  left.seconds < right.seconds ∨
    left.seconds = right.seconds ∧ left.nanoseconds < right.nanoseconds

theorem Instant.isBefore_iff {left right : Instant} :
    left.isBefore right = true ↔ left.Precedes right := by
  simp only [isBefore, Precedes, Bool.or_eq_true, Bool.and_eq_true, decide_eq_true_eq,
    beq_iff_eq]

namespace Watch

/-! The end of a line. -/

def markText (isStale : Bool) : List Char :=
  (if isStale then staleMark else "").toList

/-- What is behind the last brace of a line. -/
def endingText (value : Binary64) (isStale : Bool) : List Char :=
  ' ' :: (sampleValueStyle.characters value ++ markText isStale)

/-- Whether a line is marked as stale, and its number. -/
def readEnding (ending : List Char) : Bool × Binary64 :=
  (ending.tail.dropWhile (· != ' ') == markText true,
    readWritten (ending.tail.takeWhile (· != ' ')))

theorem brace_not_mem_endingText (value : Binary64) (isStale : Bool) :
    '}' ∉ endingText value isStale := by
  have notInMark : ∀ isStale : Bool, '}' ∉ markText isStale := by decide
  rw [endingText, List.mem_cons, List.mem_append, not_or, not_or]
  exact ⟨by decide, sampleValueStyle.not_mem_characters value (by decide), notInMark isStale⟩

/-- A number has no blank, and a mark begins with one. -/
theorem readEnding_endingText (value : Binary64) (isStale : Bool) :
    readEnding (endingText value isStale) = (isStale, value) := by
  have noBlank : ∀ character ∈ sampleValueStyle.characters value, (character != ' ') = true := by
    intro character member
    refine bne_iff_ne.mpr fun isBlank => ?_
    exact sampleValueStyle.not_mem_characters value (by decide) (isBlank ▸ member)
  have isMark : ∀ isStale : Bool, (markText isStale).takeWhile (· != ' ') = [] ∧
      ((markText isStale).dropWhile (· != ' ') == markText true) = isStale := by decide
  rw [readEnding, endingText, List.tail_cons, List.dropWhile_append_of_pos noBlank,
    List.takeWhile_append_of_pos noBlank, (isMark isStale).1, (isMark isStale).2, List.append_nil,
    readWritten_characters]

/-! The whole of a line. -/

theorem toList_lineText (zone : Zone) (instant : Instant) (labels : Labels) (value : Binary64)
    (isStale : Bool) :
    (lineText zone instant labels value isStale).toList =
      (instant.timeOfDay zone).toList ++ [' ', '{'] ++ labels.toText.toList ++
        '}' :: endingText value isStale := by
  have isFront : (" \x7b" : String).toList = [' ', '{'] := rfl
  have isBack : ("\x7d " : String).toList = ['}', ' '] := rfl
  simp only [lineText, String.toList_append, isFront, isBack, DecimalStyle.write,
    String.toList_ofList, endingText, markText, List.append_assoc, List.cons_append,
    List.nil_append]

/-- The parts that a line is put together from, and those that it gives back. -/
structure IsLine (windowStart instant : Instant) (labels : Labels) (value : Binary64)
    (line : List Char) : Prop where
  parts : ∃ clock mark, clock.length = 8 ∧
    line = clock ++ [' ', '{'] ++ labels.toText.toList ++ ['}', ' '] ++
      sampleValueStyle.characters value ++ mark ∧
    (instant.Precedes windowStart ∧ mark = " (stale)".toList ∨
      ¬instant.Precedes windowStart ∧ mark = [])
  ending : ∃ isStale, readEnding (cutAtLast '}' line).2 = (isStale, value) ∧
    (isStale = true ↔ instant.Precedes windowStart)
  labels : (cutAtLast '}' line).1.drop 10 = labels.toText.toList
  clock : readClock (line.take 8) = ((instant.seconds % secondsPerDay).toNat, instant.isLeap)

theorem isLine_observationLine (windowStart instant : Instant) (labels : Labels)
    (value : Binary64) :
    IsLine windowStart instant labels value
      (observationLine utc windowStart instant labels value).toList := by
  have ⟨isLength, isRead⟩ := readClock_timeOfDay instant
  have isCut := cutAtLast_append (brace_not_mem_endingText value (instant.isBefore windowStart))
    ((instant.timeOfDay utc).toList ++ [' ', '{'] ++ labels.toText.toList)
  rw [observationLine, toList_lineText]
  constructor
  case parts =>
    refine ⟨_, markText (instant.isBefore windowStart), isLength, ?_, ?_⟩
    · simp only [endingText, List.append_assoc, List.cons_append, List.nil_append]
    · rw [← Instant.isBefore_iff]
      cases instant.isBefore windowStart with
      | true => exact .inl ⟨rfl, rfl⟩
      | false => exact .inr ⟨Bool.false_ne_true, rfl⟩
  case ending =>
    rw [isCut, readEnding_endingText]
    exact ⟨_, rfl, Instant.isBefore_iff⟩
  case labels =>
    rw [isCut]
    exact List.drop_left' (by rw [List.length_append, isLength]; rfl)
  case clock =>
    rw [List.append_assoc, List.append_assoc, List.take_left' isLength, isRead]

/-- The line of a sample shows the second that its timestamp is in. -/
theorem isLine_sampleLine (windowStart : Instant) (sample : Sample) :
    IsLine windowStart sample.timestamp.toInstant sample.labels sample.value
      (sampleLine utc windowStart sample).toList :=
  isLine_observationLine windowStart sample.timestamp.toInstant sample.labels sample.value

/-- What two observations have in common if their lines are the same. -/
structure LooksLike (windowStart instant : Instant) (labels : Labels) (value : Binary64)
    (otherStart other : Instant) (otherLabels : Labels) (otherValue : Binary64) : Prop where
  clock : (instant.seconds % secondsPerDay).toNat = (other.seconds % secondsPerDay).toNat
  isLeap : instant.isLeap = other.isLeap
  labels : labels.toText = otherLabels.toText
  value : value = otherValue
  isStale : instant.Precedes windowStart ↔ other.Precedes otherStart

theorem observationLine_eq_iff {windowStart instant otherStart other : Instant}
    {labels otherLabels : Labels} {value otherValue : Binary64} :
    observationLine utc windowStart instant labels value =
        observationLine utc otherStart other otherLabels otherValue ↔
      LooksLike windowStart instant labels value otherStart other otherLabels otherValue := by
  constructor
  · intro same
    have isLine := isLine_observationLine windowStart instant labels value
    have isOther := isLine_observationLine otherStart other otherLabels otherValue
    rw [same] at isLine
    have ⟨isStale, isEnding, staleIff⟩ := isLine.ending
    have ⟨otherIsStale, isOtherEnding, otherStaleIff⟩ := isOther.ending
    have sameEnding := Prod.mk.inj (isEnding.symm.trans isOtherEnding)
    have sameClock := Prod.mk.inj (isLine.clock.symm.trans isOther.clock)
    constructor
    case clock => exact sameClock.1
    case isLeap => exact sameClock.2
    case labels => exact String.toList_inj.mp (isLine.labels.symm.trans isOther.labels)
    case value => exact sameEnding.2
    case isStale => rw [← staleIff, sameEnding.1, otherStaleIff]
  · intro alike
    have sameClock : instant.timeOfDay utc = other.timeOfDay utc := by
      simp only [Instant.timeOfDay, Instant.secondOfDay_utc, alike.clock, alike.isLeap]
    have sameStale : instant.isBefore windowStart = other.isBefore otherStart := by
      rw [Bool.eq_iff_iff, Instant.isBefore_iff, Instant.isBefore_iff, alike.isStale]
    rw [observationLine, observationLine, lineText, lineText, sameClock, sameStale, alike.labels,
      alike.value]

/-- A line can be cut apart and read back, whatever its labels are. Two lines are the same only if
everything that can be read back is the same. -/
theorem observationLine_isReadBack :
    (∀ (windowStart instant : Instant) (labels : Labels) (value : Binary64),
      IsLine windowStart instant labels value
        (observationLine utc windowStart instant labels value).toList) ∧
      ∀ {windowStart instant otherStart other : Instant} {labels otherLabels : Labels}
        {value otherValue : Binary64},
        observationLine utc windowStart instant labels value =
            observationLine utc otherStart other otherLabels otherValue ↔
          LooksLike windowStart instant labels value otherStart other otherLabels otherValue :=
  ⟨isLine_observationLine, observationLine_eq_iff⟩

/-! Labels may look like the end of a line. -/

example : readEnding (cutAtLast '}' "00:00:01 \x7ba=\x7d 7 (stale)\x7d 2".toList).2 =
    (false, .ofBits 0x4000000000000000) := by
  decide +kernel

end Watch

end MetricWatch
