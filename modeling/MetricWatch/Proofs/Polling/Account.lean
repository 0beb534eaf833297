import MetricWatch.Proofs.Polling.Disturbance
import MetricWatch.Proofs.Polling.Timetable

namespace MetricWatch.Polling

/-! What a poll does is settled by its own script and the times at which others cancel it.
At any moment when it has nothing left to do, these and the time account for all its
invocations and for its flag. -/

/-- A poll as it was registered, with those of its callbacks that cancel it. -/
structure Script where
  plan : Plan
  policy : FailurePolicy
  registered : Nat
  CancelsItself : (invocation : Nat) → Prop

namespace Script

variable (script : Script)

def GoesOnAfter (invocation : Nat) : Prop :=
  ¬ script.CancelsItself invocation ∧
    Course.goesOn (script.policy.consequence (script.plan.call invocation).outcome) = true

def startTime (invocation : Nat) : Nat := script.plan.startTime script.registered invocation

def finishTime (invocation : Nat) : Nat := script.plan.finishTime script.registered invocation

/-- An invocation comes if the earlier ones let the poll go on, and nobody has cancelled
it before. The first one comes in any case. -/
def Comes (times : List Nat) (invocation : Nat) : Prop :=
  (∀ earlier < invocation, script.GoesOnAfter earlier) ∧
    (invocation = 0 ∨ ∀ time ∈ times, script.startTime invocation < time)

/-! Scripts may name different numbers in different runs, and do what they like to other
polls. They are alike if the poll itself cannot tell them apart. -/

structure Alike (first second : Script) : Prop where
  interval : first.plan.interval = second.plan.interval
  duration : ∀ invocation,
    (first.plan.call invocation).duration = (second.plan.call invocation).duration
  outcome : ∀ invocation,
    (first.plan.call invocation).outcome = (second.plan.call invocation).outcome
  policy : first.policy = second.policy
  registered : first.registered = second.registered
  cancelsItself : ∀ invocation, first.CancelsItself invocation ↔ second.CancelsItself invocation

namespace Alike

variable {first second : Script} (alike : first.Alike second)

include alike

theorem startTime (invocation : Nat) :
    first.startTime invocation = second.startTime invocation := by
  simp only [Script.startTime, Plan.startTime, alike.registered, alike.duration, alike.interval]

theorem finishTime (invocation : Nat) :
    first.finishTime invocation = second.finishTime invocation := by
  have start := alike.startTime invocation
  simp only [Script.startTime] at start
  simp only [Script.finishTime, Plan.finishTime, start, alike.duration]

theorem goesOnAfter_iff (invocation : Nat) :
    first.GoesOnAfter invocation ↔ second.GoesOnAfter invocation := by
  simp only [GoesOnAfter, alike.cancelsItself, alike.policy, alike.outcome]

theorem comes_iff {times others : List Nat} (same : ∀ time, time ∈ times ↔ time ∈ others)
    (invocation : Nat) : first.Comes times invocation ↔ second.Comes others invocation := by
  simp only [Comes, alike.goesOnAfter_iff, alike.startTime, same]

end Alike

end Script

namespace Course

/-- What a poll has done so far, told from the times at which others have cancelled it. -/
structure Accounts (script : Script) (times : List Nat) (course : Course) : Prop where
  isActive : course.isActive = true ↔
    times = [] ∧ ∀ invocation < course.finishes.length, script.GoesOnAfter invocation
  goOn : ∀ invocation < course.starts.length, ∀ earlier < invocation,
    script.GoesOnAfter earlier
  notCancelled : ∀ invocation < course.starts.length, 0 < invocation → ∀ time ∈ times,
    script.startTime invocation ≤ time
  ended : course.phase = .ended →
    (∃ invocation < course.finishes.length, ¬ script.GoesOnAfter invocation) ∨
      ∃ time ∈ times, time ≤ script.startTime course.starts.length
  cancelled : ∀ time ∈ times, time ≤ course.now
  started : ∀ invocation < course.starts.length, script.startTime invocation ≤ course.now
  finished : ∀ invocation < course.finishes.length, script.finishTime invocation ≤ course.now

structure IsPunctual (script : Script) (course : Course) : Prop where
  counts : course.Counts
  inTime : course.IsInTime
  onTime : course.OnTime script.plan script.registered

variable {script : Script} {times more : List Nat} {course next : Course}

theorem accounts_registered (script : Script) :
    Accounts script [] (.registered script.registered) := by
  constructor <;> simp [registered]

namespace Accounts

theorem of_cancelled (accounts : Accounts script times course) (some : more ≠ [])
    (now : ∀ time ∈ more, time = course.now) :
    Accounts script (times ++ more) { course with isActive := false } := by
  constructor
  case isActive => simp [some]
  case goOn => exact accounts.goOn
  case notCancelled =>
    intro invocation started notFirst time member
    rcases List.mem_append.mp member with earlier | last
    · exact accounts.notCancelled invocation started notFirst time earlier
    · rw [now time last]
      exact accounts.started invocation started
  case ended =>
    intro phase
    rcases accounts.ended phase with last | ⟨time, member, before⟩
    · exact .inl last
    · exact .inr ⟨time, List.mem_append_left more member, before⟩
  case cancelled =>
    intro time member
    rcases List.mem_append.mp member with earlier | last
    · exact accounts.cancelled time earlier
    · exact Nat.le_of_eq (now time last)
  case started => exact accounts.started
  case finished => exact accounts.finished

theorem of_wait (accounts : Accounts script times course) (duration : Nat) :
    Accounts script times { course with now := course.now + duration } where
  isActive := accounts.isActive
  goOn := accounts.goOn
  notCancelled := accounts.notCancelled
  ended := accounts.ended
  cancelled time member := Nat.le_add_right_of_le (accounts.cancelled time member)
  started invocation started := Nat.le_add_right_of_le (accounts.started invocation started)
  finished invocation finished :=
    Nat.le_add_right_of_le (accounts.finished invocation finished)

theorem begin (accounts : Accounts script times course) {invocation : Nat}
    (isNext : course.starts.length = invocation)
    (goesOn : ∀ earlier < invocation, script.GoesOnAfter earlier)
    (notCancelled : 0 < invocation → times = [])
    (now : script.startTime invocation ≤ course.now) :
    Accounts script times (course.begin script.plan invocation) := by
  have length : (course.begin script.plan invocation).starts.length = invocation + 1 := by
    rw [Course.begin, List.length_append, List.length_singleton, isNext]
  constructor
  case isActive => exact accounts.isActive
  case goOn =>
    intro current started earlier before
    exact goesOn earlier (by omega)
  case notCancelled =>
    intro current started notFirst time member
    rcases Nat.lt_or_ge current course.starts.length with old | isNew
    · exact accounts.notCancelled current old notFirst time member
    · rw [notCancelled (by omega)] at member
      cases member
  case ended =>
    intro phase
    cases phase
  case cancelled => exact accounts.cancelled
  case started =>
    intro current started
    rcases Nat.lt_or_ge current course.starts.length with old | isNew
    · exact accounts.started current old
    · have same : current = invocation := by omega
      rw [same]
      exact now
  case finished => exact accounts.finished

/-- A poll ends because others have cancelled it by the time it would have gone on, or
because of one of its own invocations. -/
theorem cause_of_end (accounts : Accounts script times course) (punctual : course.IsPunctual script)
    {due length : Nat} {isActive : Bool} (isDue : course.phase.due? = some due)
    (flag : isActive = true ↔ times = [] ∧ ∀ invocation < length, script.GoesOnAfter invocation)
    (inactive : isActive = false) :
    (∃ invocation < length, ¬ script.GoesOnAfter invocation) ∨
      ∃ time ∈ times, time ≤ script.startTime course.starts.length := by
  rcases List.eq_nil_or_concat times with none | ⟨front, time, isLast⟩
  · left
    by_contra all
    have active := flag.mpr ⟨none, by simpa using all⟩
    rw [inactive] at active
    cases active
  · have member : time ∈ times := by simp [isLast]
    have notLate := punctual.inTime due isDue
    have before := punctual.onTime.due_le_startTime punctual.counts isDue (Nat.le_refl _)
    exact .inr ⟨time, member,
      Nat.le_trans (accounts.cancelled time member) (Nat.le_trans notLate before)⟩

theorem finish (accounts : Accounts script times course) (punctual : course.IsPunctual script)
    {invocation finish : Nat} {isActive : Bool}
    (running : course.phase = .running invocation finish) (due : finish ≤ course.now)
    (flag : isActive = true ↔ course.isActive = true ∧ ¬ script.CancelsItself invocation) :
    Accounts script times
      ({ course with isActive }.finish script.plan script.policy invocation) := by
  let next := { course with isActive }.finish script.plan script.policy invocation
  have finished : course.finishes.length = invocation := by
    have counts := punctual.counts
    simp only [Counts, running] at counts
    exact counts.2
  have length : next.finishes.length = invocation + 1 := by
    rw [finishes_finish, List.length_append, List.length_singleton, finished]
  have starts : next.starts = course.starts := starts_finish ..
  have now : next.now = course.now := now_finish ..
  have active : next.isActive = true ↔
      times = [] ∧ ∀ earlier < next.finishes.length, script.GoesOnAfter earlier := by
    rw [isActive_finish, Bool.and_eq_true, flag, accounts.isActive, length, finished,
      Nat.forall_lt_succ_right, and_assoc, and_assoc]
    exact Iff.rfl
  constructor
  case isActive => exact active
  case goOn =>
    rw [starts]
    exact accounts.goOn
  case notCancelled =>
    rw [starts]
    exact accounts.notCancelled
  case ended =>
    intro ended
    rw [starts]
    have isDue : course.phase.due? = some finish := by rw [running, Phase.due?]
    exact accounts.cause_of_end punctual isDue active (isActive_of_finish_ended ended)
  case cancelled =>
    rw [now]
    exact accounts.cancelled
  case started =>
    rw [starts, now]
    exact accounts.started
  case finished =>
    rw [length, now]
    intro current ended
    rcases Nat.lt_or_eq_of_le (Nat.le_of_lt_succ ended) with earlier | rfl
    · exact accounts.finished current (by omega)
    · have phase := punctual.onTime.phase
      rw [running] at phase
      exact Nat.le_trans (Nat.le_of_eq phase.2.symm) due

theorem stop (accounts : Accounts script times course) (punctual : course.IsPunctual script)
    {invocation wake : Nat} (sleeping : course.phase = .sleeping invocation wake)
    (inactive : course.isActive = false) :
    Accounts script times { course with phase := .ended } where
  isActive := accounts.isActive
  goOn := accounts.goOn
  notCancelled := accounts.notCancelled
  ended _ := by
    have isDue : course.phase.due? = some wake := by rw [sleeping, Phase.due?]
    exact accounts.cause_of_end punctual isDue accounts.isActive inactive
  cancelled := accounts.cancelled
  started := accounts.started
  finished := accounts.finished

theorem step (accounts : Accounts script times course) (punctual : course.IsPunctual script)
    {isActive : Bool}
    (flag : isActive = true ↔ course.isActive = true ∧
      ∀ invocation finish, course.phase = .running invocation finish →
        ¬ script.CancelsItself invocation)
    (step : Step script.plan script.policy { course with isActive } next) :
    Accounts script times next := by
  have phaseNow := punctual.onTime.phase
  have counts := punctual.counts
  have unchanged : (∀ invocation finish, course.phase ≠ .running invocation finish) →
      isActive = course.isActive := by
    intro notRunning
    rw [Bool.eq_iff_iff, flag]
    simp [notRunning]
  cases step with
  | first phase =>
      have registered : course.phase = .registered := phase
      simp only [Counts, registered, Phase.IsOnTime] at counts phaseNow
      rw [unchanged (by simp [registered])]
      refine accounts.begin (by simp [counts]) (by simp) (by simp) ?_
      rw [Script.startTime, Plan.startTime_zero, phaseNow]
  | @again invocation wake phase active due =>
      have sleeping : course.phase = .sleeping invocation wake := phase
      simp only [Counts, sleeping, Phase.IsOnTime] at counts phaseNow
      have same := unchanged (by simp [sleeping])
      have wasActive : course.isActive = true := same.symm.trans active
      have untouched := accounts.isActive.mp wasActive
      rw [same]
      refine accounts.begin counts.1 ?_ (fun _ => untouched.1) ?_
      · rw [← counts.2]
        exact untouched.2
      · rw [Script.startTime, ← phaseNow.2]
        exact due
  | @finish invocation finish phase due =>
      have running : course.phase = .running invocation finish := phase
      refine accounts.finish punctual running due ?_
      rw [flag]
      simp [running]
  | @stop invocation wake phase inactive =>
      have sleeping : course.phase = .sleeping invocation wake := phase
      have same := unchanged (by simp [sleeping])
      rw [same]
      exact accounts.stop punctual sleeping (same.symm.trans inactive)

theorem answers (accounts : Accounts script times course) (punctual : course.IsPunctual script)
    (answers : Answers script.plan script.policy script.CancelsItself course more next) :
    Accounts script (times ++ more) next := by
  cases answers with
  | idle => simpa using accounts
  | cancelled some now => exact accounts.of_cancelled some now
  | wait duration => simpa using accounts.of_wait duration
  | step flag step =>
      rw [List.append_nil]
      exact accounts.step punctual flag (.of_step? step)

/-! At rest a poll has done everything that was to come until now. -/

section AtRest

variable (accounts : Accounts script times course) (punctual : course.IsPunctual script)
  (rests : course.Rests)

include accounts punctual in
theorem comes_of_started (notAtStart : ∀ time ∈ times, time ∉ course.starts.tail)
    {invocation : Nat} (started : invocation < course.starts.length) :
    script.Comes times invocation := by
  refine ⟨accounts.goOn invocation started, ?_⟩
  rcases Nat.eq_zero_or_pos invocation with first | notFirst
  · exact .inl first
  · refine .inr fun time member => ?_
    have notBefore := accounts.notCancelled invocation started notFirst time member
    -- A start in the very millisecond of the cancellation is all that is left to exclude.
    refine Nat.lt_of_le_of_ne notBefore fun same => notAtStart time member ?_
    have isStart := List.getElem?_eq_getElem started
    rw [punctual.onTime.starts invocation _ isStart] at isStart
    have inTail : course.starts.tail[invocation - 1]? = some time := by
      rw [List.getElem?_tail, Nat.sub_add_cancel notFirst, isStart]
      exact congrArg some same
    exact List.mem_of_getElem? inTail

include accounts punctual rests in
theorem started_of_comes {invocation : Nat} (comes : script.Comes times invocation)
    (now : script.startTime invocation ≤ course.now) : invocation < course.starts.length := by
  by_contra notStarted
  have ahead := Nat.not_lt.mp notStarted
  cases isDue : course.phase.due? with
  | some due =>
      have notBefore := punctual.onTime.due_le_startTime punctual.counts isDue ahead
      exact absurd now (Nat.not_le.mpr (Nat.lt_of_lt_of_le (rests.lt_due isDue) notBefore))
  | none =>
      -- Whatever has ended the poll did so before this invocation was due.
      have ended := rests.ended isDue
      have counts := punctual.counts
      simp only [Counts, ended] at counts
      rcases counts with ⟨_, begun, same⟩
      rcases accounts.ended ended with ⟨earlier, finished, gaveUp⟩ | ⟨time, member, before⟩
      · exact gaveUp (comes.1 earlier (by omega))
      · have notFirst : invocation ≠ 0 := by
          have positive := List.length_pos_iff.mpr begun
          omega
        have after := (comes.2.resolve_left notFirst) time member
        have later : script.startTime course.starts.length ≤ script.startTime invocation :=
          script.plan.startTime_mono script.registered ahead
        omega

include accounts punctual rests in
theorem lt_length_starts_iff (notAtStart : ∀ time ∈ times, time ∉ course.starts.tail)
    (invocation : Nat) : invocation < course.starts.length ↔
      script.Comes times invocation ∧ script.startTime invocation ≤ course.now := by
  constructor
  · intro started
    exact ⟨accounts.comes_of_started punctual notAtStart started,
      accounts.started invocation started⟩
  · intro ⟨comes, now⟩
    exact accounts.started_of_comes punctual rests comes now

include accounts punctual rests in
theorem lt_length_finishes_iff (notAtStart : ∀ time ∈ times, time ∉ course.starts.tail)
    (invocation : Nat) : invocation < course.finishes.length ↔
      script.Comes times invocation ∧ script.finishTime invocation ≤ course.now := by
  have notMore := punctual.counts.length_finishes
  constructor
  · intro finished
    exact ⟨accounts.comes_of_started punctual notAtStart (by omega),
      accounts.finished invocation finished⟩
  · intro ⟨comes, now⟩
    have started : invocation < course.starts.length := by
      refine accounts.started_of_comes punctual rests comes (Nat.le_trans ?_ now)
      rw [Script.finishTime, Plan.finishTime]
      exact Nat.le_add_right _ _
    by_contra notFinished
    have ahead := Nat.not_lt.mp notFinished
    cases phase : course.phase with
    | running current finish =>
        have isDue : course.phase.due? = some finish := by rw [phase, Phase.due?]
        have notBefore := punctual.onTime.due_le_finishTime punctual.counts isDue ahead
        have late : finish ≤ course.now := Nat.le_trans notBefore now
        exact absurd (rests.lt_due isDue) (Nat.not_lt.mpr late)
    | registered => simp [Rests, phase] at rests
    | sleeping _ _ | ended =>
        have counts := punctual.counts
        simp only [Counts, phase] at counts
        omega

end AtRest

end Accounts

end Course

end MetricWatch.Polling
