import MetricWatch.Clock.RecentWindow

namespace MetricWatch

/-! The present, as the clock of a machine shows it. It counts from the beginning of
1970 on and knows no leap seconds, so the last minute is always within the calendar. -/

structure Present where
  instant : Instant
  since1970 : 0 ≤ instant.seconds
  notLeap : instant.isLeap = false

namespace Present

def of? (instant : Instant) : Option Present :=
  if shown : 0 ≤ instant.seconds ∧ instant.isLeap = false then
    some ⟨instant, shown.1, shown.2⟩
  else none

/-- The last minute. -/
def window (present : Present) : RecentWindow where
  start := {
    seconds := present.instant.seconds - windowSeconds
    nanoseconds := present.instant.nanoseconds
    notTooEarly := by
      have recent := present.since1970
      simp only [windowSeconds, earliestSecond]
      omega
    notTooLate := by
      have late := present.instant.notTooLate
      simp only [windowSeconds]
      omega
    bounded := present.instant.bounded
    leapAtMinuteEnd := fun leap => by
      have notLeap := present.notLeap
      simp only [Instant.isLeap, decide_eq_false_iff_not] at notLeap
      exact absurd leap notLeap }
  finish := present.instant

theorem recentWindow_instant (present : Present) :
    recentWindow present.instant = .ok present.window := by
  have start : present.instant.minuteBefore? = some present.window.start := by
    rw [Instant.minuteBefore?, present.notLeap, if_neg Bool.false_ne_true, Instant.of?]
    exact dif_pos ⟨⟨present.window.start.notTooEarly, present.window.start.notTooLate⟩,
      present.window.start.bounded, present.window.start.leapAtMinuteEnd⟩
  rw [recentWindow, start]
  rfl

end Present

end MetricWatch
