import MetricWatch.Proofs.Polling.Incidents
import MetricWatch.Proofs.Polling.Timetable

namespace MetricWatch.Polling

/-! What a failure is to a poll. A poll that continues does the same as if the invocation had
succeeded, and for a poll that stops it is the last one. -/

namespace Outcome

/-- A failure that is not reported is none to the poll. -/
def isFailure : Outcome → Bool
  | .failed (some _) => true
  | .succeeded | .failed none | .panicked => false

def mended : Outcome → Outcome
  | .succeeded | .failed _ => .succeeded
  | .panicked => .panicked

theorem goesOn_mended (outcome : Outcome) :
    Course.goesOn (FailurePolicy.consequence .continue outcome.mended) =
      Course.goesOn (FailurePolicy.consequence .continue outcome) := by
  rcases outcome with _ | (_ | _) | _ <;> rfl

theorem consequence_of_not_isFailure {outcome : Outcome} (noFailure : outcome.isFailure = false)
    (policy other : FailurePolicy) : policy.consequence outcome = other.consequence outcome := by
  rcases outcome with _ | (_ | _) | _
  · rfl
  · rfl
  · cases noFailure
  · rfl

theorem goesOn_of_isFailure {outcome : Outcome} (isFailure : outcome.isFailure = true) :
    Course.goesOn (FailurePolicy.consequence .stop outcome) = false := by
  rcases outcome with _ | (_ | _) | _
  · cases isFailure
  · cases isFailure
  · rfl
  · cases isFailure

end Outcome

def Finish.isFailure (finish : Finish) : Bool := finish.outcome.isFailure

/-- The plan of a poll whose invocations succeed where they failed before. -/
def Plan.mended (plan : Plan) : Plan :=
  { plan with
    call := fun invocation =>
      { plan.call invocation with outcome := (plan.call invocation).outcome.mended } }

namespace Course

/-- A course that has ended after some of its invocations. -/
def cutOff (course : Course) (invocations : Nat) : Course where
  now := course.now
  isActive := false
  phase := .ended
  starts := course.starts.take invocations
  finishes := course.finishes.take invocations

/-- A course as far as the end of the first invocation that fails. -/
def untilFailure (course : Course) : Course :=
  match course.finishes.findIdx? Finish.isFailure with
  | none => course
  | some failure => course.cutOff (failure + 1)

/-- In its next step the poll fails. -/
def Fails (plan : Plan) (course : Course) : Prop :=
  ∃ invocation finish, course.phase = .running invocation finish ∧ finish ≤ course.now ∧
    (plan.call invocation).outcome.isFailure = true

section Stopping

variable {plan : Plan} {course next : Course}

theorem untilFailure_of_none (whole : course.finishes.findIdx? Finish.isFailure = none) :
    course.untilFailure = course := by
  simp only [untilFailure, whole]

theorem untilFailure_of_some {failure : Nat}
    (cut : course.finishes.findIdx? Finish.isFailure = some failure) :
    course.untilFailure = course.cutOff (failure + 1) := by
  simp only [untilFailure, cut]

theorem untilFailure_eq_or_ended (course : Course) :
    course.untilFailure = course ∨
      course.untilFailure.phase = .ended ∧ course.untilFailure.now = course.now := by
  unfold untilFailure
  split
  · exact .inl rfl
  · exact .inr ⟨rfl, rfl⟩

theorem step?_stop (succeeds : ¬ course.Fails plan) :
    course.step? plan .stop = course.step? plan .continue := by
  cases phase : course.phase with
  | registered | sleeping invocation wake | ended => simp only [step?, phase]
  | running invocation finish =>
      by_cases due : finish ≤ course.now
      · have noFailure : (plan.call invocation).outcome.isFailure = false :=
          Bool.eq_false_iff.mpr fun isFailure =>
            succeeds ⟨invocation, finish, phase, due, isFailure⟩
        have same := Outcome.consequence_of_not_isFailure noFailure .stop .continue
        simp only [step?, phase, Course.finish, same]
      · simp only [step?, phase, due, if_false]

theorem findIdx?_of_not_fails {policy : FailurePolicy}
    (step : course.step? plan policy = some next) (succeeds : ¬ course.Fails plan)
    (whole : course.finishes.findIdx? Finish.isFailure = none) :
    next.finishes.findIdx? Finish.isFailure = none := by
  cases Step.of_step? step with
  | first phase | again phase active due | stop phase inactive => exact whole
  | @finish invocation finish phase due =>
      have noFailure : ¬ (plan.call invocation).outcome.isFailure = true :=
        fun isFailure => succeeds ⟨invocation, finish, phase, due, isFailure⟩
      rw [finishes_finish, List.findIdx?_append, whole]
      simp [List.findIdx?_cons, Finish.isFailure, noFailure]

/-- A step that fails is the last one of a poll that stops. -/
theorem step?_stop_of_fails (fails : course.Fails plan) (counts : course.Counts)
    (whole : course.finishes.findIdx? Finish.isFailure = none) :
    ∃ continued, course.step? plan .continue = some continued ∧
      course.step? plan .stop = some continued.untilFailure := by
  rcases fails with ⟨invocation, finish, phase, due, isFailure⟩
  refine ⟨course.finish plan .continue invocation,
    by simp only [step?, phase, due, if_true], ?_⟩
  simp only [Counts, phase] at counts
  have failure : (course.finish plan .continue invocation).finishes.findIdx? Finish.isFailure =
      some course.finishes.length := by
    rw [finishes_finish, List.findIdx?_append, whole]
    simp [List.findIdx?_cons, Finish.isFailure, isFailure]
  have stopped : (course.finish plan .continue invocation).cutOff (course.finishes.length + 1) =
      course.finish plan .stop invocation := by
    simp only [cutOff, now_finish, starts_finish, finishes_finish]
    rw [List.take_of_length_le (by omega), List.take_of_length_le (by simp)]
    simp only [Course.finish, Outcome.goesOn_of_isFailure isFailure, Bool.and_false,
      Bool.false_eq_true, if_false]
  simp only [step?, phase, due, if_true, untilFailure_of_some failure, stopped]

theorem now_step? {policy : FailurePolicy} (step : course.step? plan policy = some next) :
    next.now = course.now := by
  cases Step.of_step? step with
  | first phase | again phase active due | stop phase inactive => rfl
  | finish phase due => exact now_finish ..

theorem now_meet_turn (plan : Plan) (policy : FailurePolicy) (course : Course)
    (keepsFlag : Bool) : (course.meet plan policy (.turn keepsFlag)).now = course.now := by
  simp only [meet]
  cases step : (course.afterCallback keepsFlag).step? plan policy with
  | none => rfl
  | some next => rw [Option.getD_some, now_step? step, afterCallback_eq]

theorem counts_afterCallback (counts : course.Counts) (keepsFlag : Bool) :
    (course.afterCallback keepsFlag).Counts := by
  cases phase : course.phase with
  | running invocation finish => simpa only [afterCallback, Counts, phase] using counts
  | registered | sleeping _ _ | ended => simpa only [afterCallback, phase] using counts

theorem meet_turn_untilFailure (counts : course.Counts)
    (whole : course.finishes.findIdx? Finish.isFailure = none) (keepsFlag : Bool) :
    course.meet plan .stop (.turn keepsFlag) =
      (course.meet plan .continue (.turn keepsFlag)).untilFailure := by
  have wholeStill : (course.afterCallback keepsFlag).finishes.findIdx? Finish.isFailure = none := by
    rw [afterCallback_eq]
    exact whole
  simp only [meet]
  by_cases fails : (course.afterCallback keepsFlag).Fails plan
  · rcases step?_stop_of_fails fails (counts_afterCallback counts keepsFlag) wholeStill with
      ⟨continued, step, stopped⟩
    rw [step, stopped]
    rfl
  · rw [step?_stop fails]
    cases step : (course.afterCallback keepsFlag).step? plan .continue with
    | none => exact (untilFailure_of_none whole).symm
    | some next => exact (untilFailure_of_none (findIdx?_of_not_fails step fails wholeStill)).symm

/-- Nothing that comes later matters to a course that has been cut off. -/
theorem untilFailure_of_extends {failure : Nat}
    (cut : course.finishes.findIdx? Finish.isFailure = some failure) (counts : course.Counts)
    (starts : course.starts <+: next.starts) (finishes : course.finishes <+: next.finishes) :
    next.untilFailure = { course.untilFailure with now := next.now } := by
  rcases finishes with ⟨moreFinishes, finishes⟩
  rcases starts with ⟨moreStarts, starts⟩
  have below : failure < course.finishes.length :=
    (List.findIdx?_eq_some_iff_findIdx_eq.mp cut).1
  have begun : course.finishes.length ≤ course.starts.length := counts.length_finishes.1
  have cutStill : next.finishes.findIdx? Finish.isFailure = some failure := by
    rw [← finishes, List.findIdx?_append, cut, Option.some_or]
  rw [untilFailure_of_some cutStill, untilFailure_of_some cut]
  simp only [cutOff, ← finishes, ← starts]
  rw [List.take_append_of_le_length below,
    List.take_append_of_le_length (Nat.le_trans below begun)]

theorem meet_untilFailure (counts : course.Counts) (incident : Incident) :
    course.untilFailure.meet plan .stop incident =
      (course.meet plan .continue incident).untilFailure := by
  cases cut : course.finishes.findIdx? Finish.isFailure with
  | none =>
      rw [untilFailure_of_none cut]
      cases incident with
      | turn keepsFlag => exact meet_turn_untilFailure counts cut keepsFlag
      | cancelled | passed duration =>
          simp only [meet]
          rw [untilFailure_of_none]
          exact cut
  | some failure =>
      have unfolds : Unfolds False plan .continue course (course.meet plan .continue incident) :=
        unfolds_meet incident
      rw [untilFailure_of_extends cut counts (starts_of_unfolds unfolds)
        (finishes_of_unfolds unfolds)]
      rw [untilFailure_of_some cut]
      cases incident with
      | turn keepsFlag =>
          have rests : (course.cutOff (failure + 1)).Rests := trivial
          rw [rests.meet_turn, now_meet_turn]
          rfl
      | cancelled | passed duration => rfl

theorem meetAll_untilFailure (counts : course.Counts) (incidents : List Incident) :
    course.untilFailure.meetAll plan .stop incidents =
      (course.meetAll plan .continue incidents).untilFailure := by
  induction incidents using List.reverseRecOn with
  | nil => rfl
  | append_singleton incidents incident induction =>
      rw [meetAll_append, meetAll_append, induction]
      exact meet_untilFailure (counts.meetAll incidents) incident

/-- Without its flag an invocation is the last one, whatever comes of it. -/
theorem eq_of_last {policy : FailurePolicy} {invocation finish : Nat}
    (running : course.phase = .running invocation finish) (inactive : course.isActive = false)
    (step : course.step? plan policy = some next) :
    next = { course with
      isActive := false
      phase := .ended
      finishes := course.finishes ++ [⟨(plan.call invocation).outcome, course.now⟩] } := by
  simp only [step?, running, Option.ite_none_right_eq_some, Option.some.injEq] at step
  rw [← step.2]
  simp only [Course.finish, inactive, Bool.false_and, Bool.false_eq_true, if_false]

end Stopping

end Course

end MetricWatch.Polling
