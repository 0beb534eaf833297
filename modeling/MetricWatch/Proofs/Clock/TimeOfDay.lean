import MetricWatch.Clock.ZonedInstant

namespace MetricWatch

/-! The time of day of every moment in every zone at a fixed distance from UTC. It is the
second of the day that is left of the shifted seconds, however far they are from 1970 and on
whichever side, and nothing else about the moment matters: neither its day nor the zone that
it was noted in. -/

/-- A value below a hundred, padded with a zero where it is below ten. -/
structure IsTwoDigits (text : List Char) (value : Nat) : Prop where
  length : text.length = 2
  areDigits : text.all isDecimalDigit = true
  value : digitsValue text = value

theorem isTwoDigits_twoDigits {value : Nat} (small : value < 100) :
    IsTwoDigits (twoDigits value) value := by
  have every : ∀ value : Fin 100, (twoDigits value).length = 2 ∧
      (twoDigits value).all isDecimalDigit = true ∧ digitsValue (twoDigits value) = value := by
    decide +kernel
  obtain ⟨isLength, areDigits, isValue⟩ := every ⟨value, small⟩
  exact ⟨isLength, areDigits, isValue⟩

/-- `HH:MM:SS`. -/
def IsClockText (text : String) (hour minute second : Nat) : Prop :=
  ∃ hourText minuteText secondText,
    text.toList = hourText ++ ':' :: (minuteText ++ ':' :: secondText) ∧
      IsTwoDigits hourText hour ∧ IsTwoDigits minuteText minute ∧ IsTwoDigits secondText second

theorem isClockText_clockText {hour minute second : Nat} (smallHour : hour < 100)
    (smallMinute : minute < 100) (smallSecond : second < 100) :
    IsClockText (String.ofList (clockText hour minute second)) hour minute second :=
  ⟨_, _, _, String.toList_ofList, isTwoDigits_twoDigits smallHour,
    isTwoDigits_twoDigits smallMinute, isTwoDigits_twoDigits smallSecond⟩

theorem IsClockText.length {text : String} {hour minute second : Nat}
    (isClockText : IsClockText text hour minute second) : text.length = 8 := by
  obtain ⟨hourText, minuteText, secondText, isText, isHour, isMinute, isSecond⟩ := isClockText
  rw [← String.length_toList, isText, List.length_append, List.length_cons, List.length_append,
    List.length_cons, isHour.length, isMinute.length, isSecond.length]

theorem LocalTime.isClockText_clock (time : LocalTime) :
    ∃ hour minute second, hour < 24 ∧ minute < 60 ∧ second < 60 ∧
      3600 * hour + 60 * minute + second = time.secondOfDay ∧
      IsClockText time.clock hour minute (second + time.nanoseconds / nanosecondsPerSecond) := by
  have inDay : time.secondOfDay < 86400 := Int.ofNat_lt.mp time.inDay
  have smallHour : time.secondOfDay / 3600 < 24 := by omega
  have smallMinute : time.secondOfDay / 60 % 60 < 60 := by omega
  have smallSecond : time.secondOfDay % 60 < 60 := by omega
  have smallFraction : time.nanoseconds / nanosecondsPerSecond < 2 :=
    Nat.div_lt_of_lt_mul (Nat.mul_comm 2 _ ▸ time.bounded)
  refine ⟨_, _, _, smallHour, smallMinute, smallSecond, by omega, ?_⟩
  exact isClockText_clockText (by omega) (by omega) (by omega)

namespace ZonedInstant

/-! Carrying over midnight is the same as shifting first and dividing by days afterwards. -/

theorem localTime_day (instant : ZonedInstant) :
    instant.localTime.day =
      .ofCount ((instant.seconds + instant.offset.seconds) / secondsPerDay) := by
  have isDay : instant.seconds / secondsPerDay +
      (instant.seconds % secondsPerDay + instant.offset.seconds) / secondsPerDay =
        (instant.seconds + instant.offset.seconds) / secondsPerDay := by
    rw [secondsPerDay]
    omega
  exact congrArg LocalDay.ofCount isDay

theorem localTime_secondOfDay (instant : ZonedInstant) :
    (instant.localTime.secondOfDay : Int) =
      (instant.seconds + instant.offset.seconds) % secondsPerDay := by
  change (((instant.seconds % secondsPerDay + instant.offset.seconds) % secondsPerDay).toNat : Int)
    = (instant.seconds + instant.offset.seconds) % secondsPerDay
  rw [secondsPerDay]
  omega

/-- The second that a clock shows within the minute. -/
def shownSecond (instant : ZonedInstant) (second : Nat) : Nat :=
  if nanosecondsPerSecond ≤ instant.nanoseconds then second + 1 else second

theorem add_nanoseconds_div (instant : ZonedInstant) (second : Nat) :
    second + instant.nanoseconds / nanosecondsPerSecond = instant.shownSecond second := by
  have bounded := instant.bounded
  rw [shownSecond]
  rw [nanosecondsPerSecond] at bounded ⊢
  split <;> omega

theorem timeOfDayIn_eq_of_emod_eq {instant other : ZonedInstant} {offset otherOffset : Offset}
    (sameSecond : (instant.seconds + offset.seconds) % secondsPerDay =
      (other.seconds + otherOffset.seconds) % secondsPerDay)
    (sameNanoseconds : instant.nanoseconds = other.nanoseconds) :
    instant.timeOfDayIn offset = other.timeOfDayIn otherOffset := by
  have isSecond := (instant.inZone offset).localTime_secondOfDay
  have otherSecond := (other.inZone otherOffset).localTime_secondOfDay
  have sameSecondOfDay : (instant.inZone offset).localTime.secondOfDay =
      (other.inZone otherOffset).localTime.secondOfDay :=
    Int.ofNat.inj (isSecond.trans (sameSecond.trans otherSecond.symm))
  have sameFraction : (instant.inZone offset).localTime.nanoseconds =
      (other.inZone otherOffset).localTime.nanoseconds :=
    sameNanoseconds
  rw [timeOfDayIn, timeOfDayIn, LocalTime.clock, LocalTime.clock, sameSecondOfDay, sameFraction]

theorem isClockText_timeOfDayIn (instant : ZonedInstant) (offset : Offset) :
    ∃ hour minute second, hour < 24 ∧ minute < 60 ∧ second < 60 ∧
      ((3600 * hour + 60 * minute + second : Nat) : Int) =
        (instant.seconds + offset.seconds) % secondsPerDay ∧
      IsClockText (instant.timeOfDayIn offset) hour minute (instant.shownSecond second) := by
  obtain ⟨hour, minute, second, smallHour, smallMinute, smallSecond, isSum, isText⟩ :=
    (instant.inZone offset).localTime.isClockText_clock
  refine ⟨hour, minute, second, smallHour, smallMinute, smallSecond, ?_, ?_⟩
  · rw [isSum]
    exact (instant.inZone offset).localTime_secondOfDay
  · rw [← instant.add_nanoseconds_div second]
    exact isText

/-- What a clock at a fixed distance from UTC shows of a moment, also where the calendar has no
such day. A day later is the same second, leap second or not, of another day. -/
structure HasTimeOfDay (instant : ZonedInstant) (offset : Offset) : Prop where
  day : (instant.inZone offset).localTime.day =
    .ofCount ((instant.seconds + offset.seconds) / secondsPerDay)
  isClockText : ∃ hour minute second, hour < 24 ∧ minute < 60 ∧ second < 60 ∧
    ((3600 * hour + 60 * minute + second : Nat) : Int) =
      (instant.seconds + offset.seconds) % secondsPerDay ∧
    IsClockText (instant.timeOfDayIn offset) hour minute
      (instant.shownSecond second)
  length : (instant.timeOfDayIn offset).length = 8
  daysLater : ∀ (days : Int) (later : ZonedInstant),
    later.seconds = instant.seconds + days * secondsPerDay →
      later.nanoseconds = instant.nanoseconds →
        later.timeOfDayIn offset = instant.timeOfDayIn offset
  moved : instant.nanoseconds < nanosecondsPerSecond → ∀ moved : ZonedInstant,
    moved.seconds = instant.seconds + offset.seconds →
      moved.nanoseconds = instant.nanoseconds →
        instant.timeOfDayIn offset = moved.timeOfDayIn .utc

/-- Every moment has a time of day in every zone at a fixed distance from UTC. -/
theorem hasTimeOfDay (instant : ZonedInstant) (offset : Offset) :
    instant.HasTimeOfDay offset where
  day := (instant.inZone offset).localTime_day
  isClockText := instant.isClockText_timeOfDayIn offset
  length := by
    obtain ⟨_, _, _, _, _, _, _, isText⟩ := instant.isClockText_timeOfDayIn offset
    exact isText.length
  daysLater := by
    intro days later isLater sameNanoseconds
    apply timeOfDayIn_eq_of_emod_eq _ sameNanoseconds
    rw [isLater, Int.add_right_comm, Int.add_mul_emod_self_right]
  moved := by
    intro _ moved isMoved sameNanoseconds
    apply timeOfDayIn_eq_of_emod_eq _ sameNanoseconds.symm
    rw [isMoved, Offset.utc, Int.add_zero]

/-- The first moment of the calendar has a local day before the calendar in the west. -/
theorem hasTimeOfDay_first :
    let first : ZonedInstant := ⟨earliestSecond, 0, .utc, by decide, by decide, by decide⟩
    let next : ZonedInstant := ⟨earliestSecond + 86400, 0, .utc, by decide, by decide, by decide⟩
    let west : Offset := ⟨-3601, by decide, by decide⟩
    first.HasTimeOfDay west ∧ (first.inZone west).localTime.day = .beforeCalendar ∧
      first.timeOfDayIn west = "22:59:59" ∧ next.timeOfDayIn west = "22:59:59" := by
  intro first next west
  have hasTime := hasTimeOfDay first west
  have isText : first.timeOfDayIn west = "22:59:59" := by decide +kernel
  exact ⟨hasTime, by decide, isText, (hasTime.daysLater 1 next rfl rfl).trans isText⟩

end ZonedInstant

/-! The printed lines show the time of day in the zone of the machine. -/

namespace Instant

theorem timeOfDayIn_noted (instant : Instant) (noted : Offset) (zone : Zone) :
    (instant.noted noted).timeOfDayIn (zone instant) = instant.timeOfDay zone := by
  have isSecond : instant.secondOfDay zone =
      (((instant.noted noted).inZone (zone instant)).localTime).secondOfDay := by
    apply Int.ofNat.inj
    refine Eq.trans ?_ ((instant.noted noted).inZone (zone instant)).localTime_secondOfDay.symm
    exact Int.toNat_of_nonneg (Int.emod_nonneg _ (by decide))
  have isShown (second : Nat) : second + (if instant.isLeap then 1 else 0) =
      second + instant.nanoseconds / nanosecondsPerSecond := by
    refine Eq.trans ?_ ((instant.noted noted).add_nanoseconds_div second).symm
    rw [ZonedInstant.shownSecond]
    simp only [isLeap, decide_eq_true_eq]
    exact apply_ite (second + ·) _ 1 0
  rw [timeOfDay, isSecond, isShown]
  rfl

theorem isClockText_timeOfDay {instant : Instant} (notLeap : instant.isLeap = false)
    (zone : Zone) :
    ∃ hour minute second, hour < 24 ∧ minute < 60 ∧ second < 60 ∧
      ((3600 * hour + 60 * minute + second : Nat) : Int) =
        (instant.seconds + (zone instant).seconds) % secondsPerDay ∧
      IsClockText (instant.timeOfDay zone) hour minute second := by
  obtain ⟨hour, minute, second, smallHour, smallMinute, smallSecond, isSum, isText⟩ :=
    (instant.noted .utc).isClockText_timeOfDayIn (zone instant)
  have shown : (instant.noted .utc).shownSecond second = second :=
    if_neg (of_decide_eq_false notLeap)
  rw [timeOfDayIn_noted, shown] at isText
  exact ⟨hour, minute, second, smallHour, smallMinute, smallSecond, isSum, isText⟩

end Instant

/-- Milliseconds do not count leap seconds. -/
theorem Timestamp.isLeap_toInstant (timestamp : Timestamp) :
    timestamp.toInstant.isLeap = false := by
  have notMore : (timestamp.milliseconds % 1000).toNat * 1000000 < nanosecondsPerSecond := by
    rw [nanosecondsPerSecond]
    omega
  exact decide_eq_false (Nat.not_le.mpr notMore)

end MetricWatch
