import MetricWatch.Proofs.Number.Signed
import MetricWatch.Response.Sample

namespace MetricWatch.Response

/-! The times of samples. A thousand times the seconds, rounded to a double, is cut off behind the
point, and what is left counts if it is within the calendar. -/

def InCalendar (milliseconds : Int) : Prop :=
  -8334601228800000 ≤ milliseconds ∧ milliseconds ≤ 8210266876799999

/-- What becomes of a number of seconds, by the double that its product with a thousand is
rounded to. -/
structure ConvertsBy (seconds product : Binary64) : Prop where
  inCalendar : product.isFinite = true → InCalendar (truncation product.exact) →
    ∃ timestamp, timestampOfSeconds seconds = .ok timestamp ∧
      timestamp.milliseconds = truncation product.exact
  outOfCalendar : product.isFinite = true → ¬InCalendar (truncation product.exact) →
    timestampOfSeconds seconds = .error (.unsuitable (.timestampOutOfRange seconds))
  overflow : timestampOfSeconds seconds = .error (.unsuitable (.infiniteTimestamp seconds)) ↔
    product.isFinite = false

/-- A number of seconds is accepted, or beyond the calendar, or beyond the doubles. -/
theorem timestampOfSeconds_cases (seconds : Binary64) :
    (∃ timestamp, timestampOfSeconds seconds = .ok timestamp ∧
        (seconds.timesNat 1000).truncated? = some timestamp.milliseconds) ∨
      (∃ milliseconds, timestampOfSeconds seconds =
          .error (.unsuitable (.timestampOutOfRange seconds)) ∧
        (seconds.timesNat 1000).truncated? = some milliseconds ∧ ¬InCalendar milliseconds) ∨
      timestampOfSeconds seconds = .error (.unsuitable (.infiniteTimestamp seconds)) ∧
        (seconds.timesNat 1000).truncated? = none := by
  cases isWhole : (seconds.timesNat 1000).truncated? with
  | none => exact .inr (.inr ⟨by rw [timestampOfSeconds, isWhole], rfl⟩)
  | some milliseconds =>
      by_cases inCalendar : InCalendar milliseconds
      · have accepted : timestampOfSeconds seconds =
            .ok ⟨milliseconds, inCalendar.1, inCalendar.2⟩ :=
          timestampOfSeconds_eq_ok_iff.mpr isWhole
        exact .inl ⟨_, accepted, rfl⟩
      · have noTimestamp : Timestamp.ofMilliseconds? milliseconds = none := dif_neg inCalendar
        have rejected : timestampOfSeconds seconds =
            .error (.unsuitable (.timestampOutOfRange seconds)) := by
          simp only [timestampOfSeconds, isWhole, Timestamp.ofMilliseconds?_saturated, noTimestamp]
        exact .inr (.inl ⟨milliseconds, rejected, rfl, inCalendar⟩)

theorem convertsBy_timesNat (seconds : Binary64) :
    ConvertsBy seconds (seconds.timesNat 1000) := by
  rcases timestampOfSeconds_cases seconds with
    ⟨timestamp, accepted, isWhole⟩ | ⟨milliseconds, rejected, isWhole, notInCalendar⟩ |
      ⟨rejected, notWhole⟩
  case inl =>
    have ⟨finite, isCount⟩ := Binary64.truncated?_eq_some_iff.mp isWhole
    constructor
    case inCalendar => exact fun _ _ => ⟨timestamp, accepted, isCount⟩
    case outOfCalendar =>
      intro _ notInCalendar
      rw [← isCount] at notInCalendar
      exact absurd ⟨timestamp.notTooEarly, timestamp.notTooLate⟩ notInCalendar
    case overflow =>
      rw [accepted, finite]
      exact iff_of_false nofun nofun
  case inr.inl =>
    have ⟨finite, isCount⟩ := Binary64.truncated?_eq_some_iff.mp isWhole
    rw [isCount] at notInCalendar
    constructor
    case inCalendar => exact fun _ inCalendar => absurd inCalendar notInCalendar
    case outOfCalendar => exact fun _ _ => rejected
    case overflow =>
      rw [rejected, finite]
      exact iff_of_false nofun nofun
  case inr.inr =>
    have notFinite := Binary64.truncated?_eq_none_iff.mp notWhole
    constructor
    case inCalendar => exact fun finite => absurd (notFinite.symm.trans finite) Bool.false_ne_true
    case outOfCalendar =>
      exact fun finite => absurd (notFinite.symm.trans finite) Bool.false_ne_true
    case overflow => exact iff_of_true rejected notFinite

/-- The count of an accepted number of seconds. -/
theorem exists_product_of_accepted {seconds : Binary64} {timestamp : Timestamp}
    (accepted : timestampOfSeconds seconds = .ok timestamp) :
    ∃ product, Binary64.IsProduct 1000 seconds product ∧
      timestamp.milliseconds = truncation product.exact := by
  have ⟨_, isCount⟩ :=
    Binary64.truncated?_eq_some_iff.mp (timestampOfSeconds_eq_ok_iff.mp accepted)
  cases seconds with
  | nan => cases timestampOfSeconds_eq_ok_iff.mp accepted
  | number negative magnitude =>
      exact ⟨_, Binary64.isProduct_timesNat 1000 negative magnitude, isCount⟩

theorem milliseconds_mono {seconds later : Binary64} {timestamp laterTimestamp : Timestamp}
    (accepted : timestampOfSeconds seconds = .ok timestamp)
    (laterAccepted : timestampOfSeconds later = .ok laterTimestamp)
    (order : seconds.exact ≤ later.exact) :
    timestamp.milliseconds ≤ laterTimestamp.milliseconds := by
  have ⟨product, isProduct, isCount⟩ := exists_product_of_accepted accepted
  have ⟨laterProduct, isLaterProduct, isLaterCount⟩ := exists_product_of_accepted laterAccepted
  rw [isCount, isLaterCount]
  exact truncation_mono (isProduct.mono isLaterProduct order)

theorem milliseconds_opposite {seconds : Binary64} {timestamp other : Timestamp}
    (accepted : timestampOfSeconds seconds = .ok timestamp)
    (otherAccepted : timestampOfSeconds seconds.opposite = .ok other) :
    other.milliseconds = -timestamp.milliseconds := by
  have ⟨product, isProduct, isCount⟩ := exists_product_of_accepted accepted
  have ⟨otherProduct, isOtherProduct, isOtherCount⟩ := exists_product_of_accepted otherAccepted
  rw [isOtherCount, isCount, isOtherProduct.unique isProduct.opposite, Binary64.exact_opposite,
    truncation_neg]

/-- Seconds are converted without a detour: the rounded product is cut off and kept, or it is
told why not. Later seconds give no earlier time, and opposite ones opposite times. -/
theorem timestampOfSeconds_neverWraps :
    (∀ seconds : Binary64, seconds.isFinite = true →
      ∃ product, Binary64.IsProduct 1000 seconds product ∧ ConvertsBy seconds product) ∧
    (∀ {seconds later : Binary64} {timestamp laterTimestamp : Timestamp},
      timestampOfSeconds seconds = .ok timestamp →
        timestampOfSeconds later = .ok laterTimestamp → seconds.exact ≤ later.exact →
          timestamp.milliseconds ≤ laterTimestamp.milliseconds) ∧
    ∀ {seconds : Binary64} {timestamp other : Timestamp},
      timestampOfSeconds seconds = .ok timestamp →
        timestampOfSeconds seconds.opposite = .ok other →
          other.milliseconds = -timestamp.milliseconds := by
  refine ⟨fun seconds finite => ?_, milliseconds_mono, milliseconds_opposite⟩
  cases seconds with
  | nan => cases finite
  | number negative magnitude =>
      exact ⟨_, Binary64.isProduct_timesNat 1000 negative magnitude, convertsBy_timesNat _⟩

/-! A second and nine tenths of a millisecond before the beginning of 1970, and after it. -/

def beforeSecond : Binary64 :=
  .ofBits 0xBFF003AFB7E90FF9

def minusOneSecond : Timestamp :=
  ⟨-1000, by decide, by decide⟩

def plusOneSecond : Timestamp :=
  ⟨1000, by decide, by decide⟩

theorem timestampOfSeconds_neverWraps_beforeSecond :
    beforeSecond.isFinite = true ∧
      (∃ product, Binary64.IsProduct 1000 beforeSecond product ∧
        ConvertsBy beforeSecond product) ∧
      timestampOfSeconds beforeSecond = .ok minusOneSecond ∧
      timestampOfSeconds beforeSecond.opposite = .ok plusOneSecond ∧
      beforeSecond.exact ≤ beforeSecond.opposite.exact ∧
      minusOneSecond.milliseconds ≤ plusOneSecond.milliseconds ∧
      plusOneSecond.milliseconds = -minusOneSecond.milliseconds := by
  have finite : beforeSecond.isFinite = true := by decide
  have accepted : timestampOfSeconds beforeSecond = .ok minusOneSecond :=
    timestampOfSeconds_eq_ok_iff.mpr (by decide +kernel)
  have oppositeAccepted : timestampOfSeconds beforeSecond.opposite = .ok plusOneSecond :=
    timestampOfSeconds_eq_ok_iff.mpr (by decide +kernel)
  have order : beforeSecond.exact ≤ beforeSecond.opposite.exact :=
    (neg_nonpos.mpr (Magnitude.value_nonneg _)).trans (Magnitude.value_nonneg _)
  have ⟨converts, keepsOrder, keepsOpposites⟩ := timestampOfSeconds_neverWraps
  exact ⟨finite, converts _ finite, accepted, oppositeAccepted, order,
    keepsOrder accepted oppositeAccepted order, keepsOpposites accepted oppositeAccepted⟩

end MetricWatch.Response
