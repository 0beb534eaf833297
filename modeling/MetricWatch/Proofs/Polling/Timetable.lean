import Mathlib
import MetricWatch.Proofs.Polling.Cancellation

namespace MetricWatch.Polling

/-! The timetable of a poll follows from its plan and the time when it was registered.
As long as the poll is active it keeps to the timetable, whatever other polls do. -/

namespace Plan

variable {plan : Plan} {registered first second : Nat}

def startTime (plan : Plan) (registered invocation : Nat) : Nat :=
  registered + ∑ earlier ∈ Finset.range invocation,
    ((plan.call earlier).duration + plan.interval)

def finishTime (plan : Plan) (registered invocation : Nat) : Nat :=
  plan.startTime registered invocation + (plan.call invocation).duration

theorem startTime_zero (plan : Plan) (registered : Nat) :
    plan.startTime registered 0 = registered := by
  simp [startTime]

theorem startTime_succ (plan : Plan) (registered invocation : Nat) :
    plan.startTime registered (invocation + 1) =
      plan.finishTime registered invocation + plan.interval := by
  rw [finishTime, startTime, startTime, Finset.sum_range_succ]
  omega

theorem finishTime_mono (plan : Plan) (registered : Nat) :
    Monotone (plan.finishTime registered) := by
  apply monotone_nat_of_le_succ
  intro invocation
  rw [finishTime.eq_1 plan registered (invocation + 1), startTime_succ]
  omega

theorem startTime_mono (plan : Plan) (registered : Nat) :
    Monotone (plan.startTime registered) := by
  apply monotone_nat_of_le_succ
  intro invocation
  rw [startTime_succ, finishTime]
  omega

end Plan

def Phase.IsOnTime (plan : Plan) (registered now : Nat) : Phase → Prop
  | .registered => now = registered
  | .running invocation finish =>
      plan.startTime registered invocation ≤ now ∧
        finish = plan.finishTime registered invocation
  | .sleeping invocation wake =>
      plan.finishTime registered invocation ≤ now ∧
        wake = plan.startTime registered (invocation + 1)
  | .ended => True

namespace Course

/-- What a poll has done so far, and what it is about to do, is in its timetable. -/
structure OnTime (plan : Plan) (registered : Nat) (course : Course) : Prop where
  starts : ∀ invocation time, course.starts[invocation]? = some time →
    time = plan.startTime registered invocation
  finishes : ∀ invocation (finish : Finish), course.finishes[invocation]? = some finish →
    finish = ⟨(plan.call invocation).outcome, plan.finishTime registered invocation⟩
  phase : course.phase.IsOnTime plan registered course.now

theorem onTime_registered (plan : Plan) (now : Nat) : (registered now).OnTime plan now := by
  constructor
  case starts =>
    intro invocation time isStart
    simp [registered] at isStart
  case finishes =>
    intro invocation finish isFinish
    simp [registered] at isFinish
  case phase => rfl

section Steps

variable {timely : Prop} {plan : Plan} {policy : FailurePolicy} {registered : Nat}
  {course next : Course}

theorem getElem?_append_singleton {Content : Type} {contents : List Content}
    {content found : Content} {index : Nat}
    (isFound : (contents ++ [content])[index]? = some found) :
    contents[index]? = some found ∨ index = contents.length ∧ found = content := by
  rcases Nat.lt_or_ge index contents.length with below | beyond
  · rw [List.getElem?_append_left below] at isFound
    exact .inl isFound
  · rw [List.getElem?_append_right beyond, List.getElem?_singleton] at isFound
    split at isFound
    · rename_i isLast
      cases isFound
      exact .inr ⟨by omega, rfl⟩
    · cases isFound

theorem OnTime.begin {invocation : Nat} (onTime : course.OnTime plan registered)
    (next : course.starts.length = invocation)
    (now : course.now = plan.startTime registered invocation) :
    (course.begin plan invocation).OnTime plan registered where
  starts := by
    intro number time isFound
    rcases getElem?_append_singleton isFound with earlier | ⟨isLast, rfl⟩
    · exact onTime.starts number time earlier
    · rw [isLast, next]
      exact now
  finishes := onTime.finishes
  phase := ⟨Nat.le_of_eq now.symm, by rw [now, Plan.finishTime]⟩

theorem OnTime.finish {invocation finish : Nat} (onTime : course.OnTime plan registered)
    (counts : course.Counts) (inTime : course.IsInTime)
    (running : course.phase = .running invocation finish) (due : finish ≤ course.now) :
    (course.finish plan policy invocation).OnTime plan registered := by
  have ⟨_, isFinish⟩ : plan.startTime registered invocation ≤ course.now ∧
      finish = plan.finishTime registered invocation := by
    simpa only [running, Phase.IsOnTime] using onTime.phase
  have now : course.now = plan.finishTime registered invocation := by
    have notLate := inTime finish (by rw [running, Phase.due?])
    rw [← isFinish]
    exact Nat.le_antisymm notLate due
  have length : course.finishes.length = invocation := by
    simp only [Counts, running] at counts
    exact counts.2
  constructor
  case starts =>
    rw [starts_finish]
    exact onTime.starts
  case finishes =>
    rw [finishes_finish]
    intro number found isFound
    rcases getElem?_append_singleton isFound with earlier | ⟨isLast, rfl⟩
    · exact onTime.finishes number found earlier
    · rw [isLast, length, now]
  case phase =>
    simp only [Course.finish]
    split
    · exact ⟨Nat.le_of_eq now.symm, by rw [now, Plan.startTime_succ]⟩
    · trivial

theorem OnTime.proceeds (onTime : course.OnTime plan registered) (counts : course.Counts)
    (inTime : course.IsInTime) (isTimely : timely)
    (proceeds : Proceeds timely plan policy course next) : next.OnTime plan registered := by
  have phaseNow := onTime.phase
  cases proceeds with
  | deactivate => exact ⟨onTime.starts, onTime.finishes, phaseNow⟩
  | wait duration allowed =>
      refine ⟨onTime.starts, onTime.finishes, ?_⟩
      have rests := (allowed isTimely).1
      cases phase : course.phase with
      | registered => simp [Rests, phase] at rests
      | running invocation finish | sleeping invocation wake =>
          simp only [phase, Phase.IsOnTime] at phaseNow ⊢
          exact ⟨Nat.le_add_right_of_le phaseNow.1, phaseNow.2⟩
      | ended => trivial
  | step step =>
      cases Step.of_step? step with
      | first phase =>
          simp only [Counts, phase] at counts
          simp only [phase, Phase.IsOnTime] at phaseNow
          refine onTime.begin (by simp [counts]) ?_
          rw [phaseNow, Plan.startTime_zero]
      | @again invocation wake phase active due =>
          simp only [Counts, phase] at counts
          simp only [phase, Phase.IsOnTime] at phaseNow
          refine onTime.begin counts.1 ?_
          have notLate := inTime wake (by rw [phase, Phase.due?])
          rw [← phaseNow.2]
          exact Nat.le_antisymm notLate due
      | finish phase due => exact onTime.finish counts inTime phase due
      | stop phase inactive => exact ⟨onTime.starts, onTime.finishes, trivial⟩

end Steps

/-! Where a poll is in its timetable at a given time. -/

section Place

variable {plan : Plan} {registered : Nat} {course : Course}

theorem Counts.length_finishes (counts : course.Counts) :
    course.finishes.length ≤ course.starts.length ∧
      course.starts.length ≤ course.finishes.length + 1 := by
  unfold Counts at counts
  cases phase : course.phase with
  | registered =>
      simp only [phase] at counts
      simp [counts]
  | running _ _ | sleeping _ _ | ended =>
      simp only [phase] at counts
      omega

theorem OnTime.startTime_le (onTime : course.OnTime plan registered) (counts : course.Counts)
    (active : course.isActive = true) {invocation : Nat}
    (started : invocation < course.starts.length) :
    plan.startTime registered invocation ≤ course.now := by
  have phaseNow := onTime.phase
  cases phase : course.phase with
  | registered =>
      simp only [Counts, phase] at counts
      simp [counts] at started
  | running last finish =>
      simp only [Counts, phase, Phase.IsOnTime] at counts phaseNow
      have before := plan.startTime_mono registered (show invocation ≤ last by omega)
      exact Nat.le_trans before phaseNow.1
  | sleeping last wake =>
      simp only [Counts, phase, Phase.IsOnTime] at counts phaseNow
      have before := plan.startTime_mono registered (show invocation ≤ last by omega)
      have ended := phaseNow.1
      rw [Plan.finishTime] at ended
      omega
  | ended => simp [Counts, phase, active] at counts

theorem OnTime.finishTime_le (onTime : course.OnTime plan registered) (counts : course.Counts)
    (active : course.isActive = true) {invocation : Nat}
    (finished : invocation < course.finishes.length) :
    plan.finishTime registered invocation ≤ course.now := by
  have phaseNow := onTime.phase
  cases phase : course.phase with
  | registered =>
      simp only [Counts, phase] at counts
      simp [counts] at finished
  | running current finish =>
      simp only [Counts, phase, Phase.IsOnTime] at counts phaseNow
      have before := plan.startTime_mono registered (show invocation + 1 ≤ current by omega)
      rw [Plan.startTime_succ] at before
      omega
  | sleeping last wake =>
      simp only [Counts, phase, Phase.IsOnTime] at counts phaseNow
      have before := plan.finishTime_mono registered (show invocation ≤ last by omega)
      exact Nat.le_trans before phaseNow.1
  | ended => simp [Counts, phase, active] at counts

theorem OnTime.due_le_startTime (onTime : course.OnTime plan registered)
    (counts : course.Counts) {due invocation : Nat} (isDue : course.phase.due? = some due)
    (ahead : course.starts.length ≤ invocation) : due ≤ plan.startTime registered invocation := by
  have phaseNow := onTime.phase
  cases phase : course.phase with
  | registered | ended => simp [phase, Phase.due?] at isDue
  | running last finish =>
      simp only [phase, Phase.due?, Phase.IsOnTime, Option.some.injEq] at isDue phaseNow
      simp only [Counts, phase] at counts
      have after := plan.startTime_mono registered (show last + 1 ≤ invocation by omega)
      rw [Plan.startTime_succ] at after
      omega
  | sleeping last wake =>
      simp only [phase, Phase.due?, Phase.IsOnTime, Option.some.injEq] at isDue phaseNow
      simp only [Counts, phase] at counts
      have after := plan.startTime_mono registered (show last + 1 ≤ invocation by omega)
      omega

theorem OnTime.due_le_finishTime (onTime : course.OnTime plan registered)
    (counts : course.Counts) {due invocation : Nat} (isDue : course.phase.due? = some due)
    (ahead : course.finishes.length ≤ invocation) :
    due ≤ plan.finishTime registered invocation := by
  have phaseNow := onTime.phase
  cases phase : course.phase with
  | registered | ended => simp [phase, Phase.due?] at isDue
  | running current finish =>
      simp only [phase, Phase.due?, Phase.IsOnTime, Option.some.injEq] at isDue phaseNow
      simp only [Counts, phase] at counts
      have after := plan.finishTime_mono registered (show current ≤ invocation by omega)
      omega
  | sleeping last wake =>
      simp only [phase, Phase.due?, Phase.IsOnTime, Option.some.injEq] at isDue phaseNow
      simp only [Counts, phase] at counts
      have after := plan.startTime_mono registered (show last + 1 ≤ invocation by omega)
      rw [Plan.finishTime]
      omega

/-- An active poll at rest is waiting for something. -/
theorem Rests.due (rests : course.Rests) (counts : course.Counts)
    (active : course.isActive = true) :
    ∃ due, course.phase.due? = some due ∧ course.now < due := by
  cases phase : course.phase with
  | registered => simp [Rests, phase] at rests
  | running invocation finish =>
      simp only [Rests, phase] at rests
      exact ⟨finish, rfl, rests⟩
  | sleeping invocation wake =>
      simp only [Rests, phase] at rests
      exact ⟨wake, rfl, rests.2⟩
  | ended => simp [Counts, phase, active] at counts

theorem OnTime.lt_length_starts_iff (onTime : course.OnTime plan registered)
    (counts : course.Counts) (active : course.isActive = true) (rests : course.Rests)
    (invocation : Nat) :
    invocation < course.starts.length ↔ plan.startTime registered invocation ≤ course.now := by
  rcases rests.due counts active with ⟨due, isDue, before⟩
  constructor
  · exact onTime.startTime_le counts active
  · intro reached
    by_contra notStarted
    have ahead := onTime.due_le_startTime counts isDue (Nat.not_lt.mp notStarted)
    omega

theorem OnTime.lt_length_finishes_iff (onTime : course.OnTime plan registered)
    (counts : course.Counts) (active : course.isActive = true) (rests : course.Rests)
    (invocation : Nat) :
    invocation < course.finishes.length ↔
      plan.finishTime registered invocation ≤ course.now := by
  rcases rests.due counts active with ⟨due, isDue, before⟩
  constructor
  · exact onTime.finishTime_le counts active
  · intro reached
    by_contra notFinished
    have ahead := onTime.due_le_finishTime counts isDue (Nat.not_lt.mp notFinished)
    omega

end Place

/-! A poll that is deactivated at some time has started what came before it in its
timetable, and starts nothing else but its first invocation. -/

section Until

variable {timely : Prop} {plan : Plan} {policy : FailurePolicy} {registered time : Nat}
  {course next : Course}

def StartedUntil (plan : Plan) (registered time : Nat) (course : Course) : Prop :=
  ∀ invocation, 0 < invocation →
    (invocation < course.starts.length ↔ plan.startTime registered invocation < time)

theorem OnTime.startedUntil_now (onTime : course.OnTime plan registered)
    (counts : course.Counts) (inTime : course.IsInTime) (active : course.isActive = true)
    (notAtOnce : ∀ invocation, 0 < invocation →
      course.now ≠ plan.startTime registered invocation) :
    course.StartedUntil plan registered course.now := by
  intro invocation notFirst
  constructor
  · intro started
    have notLater := onTime.startTime_le counts active started
    exact Nat.lt_of_le_of_ne notLater (notAtOnce invocation notFirst).symm
  · intro before
    by_contra notStarted
    have ahead : course.starts.length ≤ invocation := Nat.not_lt.mp notStarted
    cases isDue : course.phase.due? with
    | some due =>
        have notLate := inTime due isDue
        have notBefore := onTime.due_le_startTime counts isDue ahead
        omega
    | none =>
        have phaseNow := onTime.phase
        cases phase : course.phase with
        | registered =>
            simp only [phase, Phase.IsOnTime] at phaseNow
            rw [phaseNow, Plan.startTime] at before
            omega
        | running _ _ | sleeping _ _ => simp [phase, Phase.due?] at isDue
        | ended => simp [Counts, phase, active] at counts

theorem StartedUntil.proceeds (started : course.StartedUntil plan registered time)
    (counts : course.Counts) (inactive : course.isActive = false)
    (proceeds : Proceeds timely plan policy course next) :
    next.StartedUntil plan registered time ∧ next.isActive = false := by
  cases proceeds with
  | deactivate => exact ⟨started, rfl⟩
  | wait duration => exact ⟨started, inactive⟩
  | step step =>
      cases Step.of_step? step with
      | first phase =>
          refine ⟨?_, inactive⟩
          simp only [Counts, phase] at counts
          intro invocation notFirst
          have notBefore := started invocation notFirst
          simp only [begin, counts, List.nil_append, List.length_singleton, List.length_nil]
            at notBefore ⊢
          omega
      | again phase active due =>
          rw [inactive] at active
          cases active
      | finish phase due =>
          rw [StartedUntil, starts_finish]
          refine ⟨started, ?_⟩
          simp [Course.finish, inactive]
      | stop phase _ => exact ⟨started, inactive⟩

theorem Unfolds.startedUntil (unfolds : Unfolds timely plan policy course next)
    (counts : course.Counts) (inactive : course.isActive = false)
    (started : course.StartedUntil plan registered time) :
    next.StartedUntil plan registered time := by
  have kept : ∀ {course next : Course},
      course.Counts ∧ course.StartedUntil plan registered time ∧ course.isActive = false →
        Proceeds timely plan policy course next →
          next.Counts ∧ next.StartedUntil plan registered time ∧ next.isActive = false :=
    fun ⟨counts, started, inactive⟩ proceeds =>
      ⟨counts.proceeds proceeds, started.proceeds counts inactive proceeds⟩
  exact (unfolds.keeps kept ⟨counts, started, inactive⟩).2.1

end Until

end Course

/-- A step with which a poll deactivates itself is the end of an invocation. -/
theorem World.starts_of_deactivating_step {moment next : World} {number : Nat} {poll : Poll}
    (isPoll : moment.polls[number]? = some poll) (step : moment.step? number = some next)
    (active : moment.isActive poll.registry poll.handle = true)
    (inactive : next.isActive poll.registry poll.handle = false) :
    next.starts number = moment.starts number := by
  have notBegun : ∀ invocation, moment.begin number poll invocation ≠ next := by
    intro invocation begun
    subst begun
    have unchanged : (moment.begin number poll invocation).isActive poll.registry poll.handle =
        moment.isActive poll.registry poll.handle := rfl
    rw [unchanged, active] at inactive
    cases inactive
  simp only [step?, isPoll] at step
  cases phase : poll.phase with
  | registered =>
      simp only [phase, Option.some.injEq] at step
      exact absurd step (notBegun 0)
  | running invocation finish =>
      simp only [phase, Option.ite_none_right_eq_some, Option.some.injEq] at step
      rcases step with ⟨due, rfl⟩
      rcases step?_of_finish isPoll phase due with ⟨_, _, stepped⟩
      simp only [Course.step?, course, phase, due, if_true, Option.some.injEq] at stepped
      have starts := congrArg Course.starts stepped
      rw [Course.starts_finish] at starts
      exact starts.symm
  | sleeping invocation wake =>
      simp only [phase, active, Bool.not_true, Bool.false_eq_true, if_false,
        Option.ite_none_right_eq_some, Option.some.injEq] at step
      exact absurd step.2 (notBegun (invocation + 1))
  | ended => simp [phase] at step

/-- A poll does not start anything by a move that deactivates it. -/
theorem Moves.starts_of_deactivates {moment next : World} (move : Moves moment next)
    {number : Nat} {poll : Poll} (isPoll : moment.polls[number]? = some poll)
    (active : moment.isActive poll.registry poll.handle = true)
    (inactive : next.isActive poll.registry poll.handle = false) :
    next.starts number = moment.starts number := by
  cases move with
  | step other step =>
      by_cases same : other = number
      · subst same
        exact World.starts_of_deactivating_step isPoll step active inactive
      · exact (World.spares_of_step same step).starts
  | operate operation => exact (World.Spares.operate number moment .program operation).starts
  | register plan available => exact World.starts_register plan number
  | pass duration allowed => rfl

namespace World

/-- What the timetable says of a poll at one moment. -/
structure KeepsTimetable (moment : World) (number : Nat) (index : Nat) (handle : Handle)
    (plan : Plan) (registered : Nat) : Prop where
  starts : ∀ invocation time, (moment.starts number)[invocation]? = some time →
    time = plan.startTime registered invocation
  finishes : ∀ invocation (finish : Finish),
    (moment.finishes number)[invocation]? = some finish →
      finish = ⟨(plan.call invocation).outcome, plan.finishTime registered invocation⟩
  oneAtATime : (moment.finishes number).length ≤ (moment.starts number).length ∧
    (moment.starts number).length ≤ (moment.finishes number).length + 1
  startsWhileActive : moment.isActive index handle = true → moment.IsAtRest →
    ∀ invocation, (moment.starts number)[invocation]? =
      if plan.startTime registered invocation ≤ moment.now then
        some (plan.startTime registered invocation)
      else none
  finishesWhileActive : moment.isActive index handle = true → moment.IsAtRest →
    ∀ invocation, (moment.finishes number)[invocation]? =
      if plan.finishTime registered invocation ≤ moment.now then
        some ⟨(plan.call invocation).outcome, plan.finishTime registered invocation⟩
      else none
  startsUntilInactive : ∀ {next later : World}, moment.isActive index handle = true →
    Moves moment next → next.isActive index handle = false → Reaches next later →
      later.TakesTime → later.IsAtRest →
        (∀ invocation, 0 < invocation → moment.now ≠ plan.startTime registered invocation) →
          ∀ invocation, (later.starts number)[invocation]? =
            if invocation = 0 ∨ plan.startTime registered invocation < moment.now then
              some (plan.startTime registered invocation)
            else none

section Registered

variable {policies : List FailurePolicy} {before moment : World} {index : Nat}
  {registry : Registry} {plan : Plan}

/-- All that is known of a poll since it was registered. -/
theorem onTime_of_registered (reached : Reaches (start policies) before)
    (available : before.registry? index = some registry)
    (continued : Reaches (before.register index registry plan) moment)
    (takesTime : moment.TakesTime) :
    ∃ poll, moment.polls[before.polls.length]? = some poll ∧ poll.registry = index ∧
      poll.handle = registry.nextHandle ∧ poll.plan = plan ∧
      (moment.course before.polls.length poll).Counts ∧
      (moment.course before.polls.length poll).IsInTime ∧
      (moment.course before.polls.length poll).OnTime plan before.now := by
  have isPoll : (before.register index registry plan).polls[before.polls.length]? =
      some ⟨index, registry.nextHandle, registry.policy, plan, .registered⟩ :=
    List.getElem?_concat_length
  have reachedSince : Reaches (start policies) (before.register index registry plan) :=
    reached.tail (.register plan available)
  rcases continued.unfolds isPoll (reachedSince.knows isPoll) with ⟨phase, isPollNow, unfolds⟩
  rw [course_registered reached plan available] at unfolds
  refine ⟨_, isPollNow, rfl, rfl, rfl, ?_⟩
  have kept : ∀ {course next : Course},
      course.Counts ∧ course.IsInTime ∧ course.OnTime plan before.now →
        Course.Proceeds moment.TakesTime plan registry.policy course next →
          next.Counts ∧ next.IsInTime ∧ next.OnTime plan before.now :=
    fun ⟨counts, inTime, onTime⟩ proceeds =>
      ⟨counts.proceeds proceeds, inTime.proceeds takesTime proceeds,
        onTime.proceeds counts inTime takesTime proceeds⟩
  exact unfolds.keeps kept ⟨Course.counts_registered _, Course.isInTime_registered _,
    Course.onTime_registered plan _⟩

/-- A list whose entries are known is known when its length is. -/
theorem getElem?_of_lt_length_iff {Content : Type} {contents : List Content}
    {content : Content} {index : Nat} {Comes : Prop} [Decidable Comes]
    (comes : index < contents.length ↔ Comes)
    (isContent : ∀ found, contents[index]? = some found → found = content) :
    contents[index]? = if Comes then some content else none := by
  by_cases inside : index < contents.length
  · have found := List.getElem?_eq_getElem inside
    rw [if_pos (comes.mp inside), found, isContent _ found]
  · rw [if_neg (fun is => inside (comes.mpr is)), List.getElem?_eq_none (Nat.not_lt.mp inside)]

/-- Once a poll is inactive there is only its first invocation to come. -/
theorem starts_of_startedUntil {later : World} {time : Nat}
    (reached : Reaches (start policies) before)
    (available : before.registry? index = some registry)
    (continued : Reaches (before.register index registry plan) moment)
    (afterwards : Reaches moment later) (takesTime : later.TakesTime) (atRest : later.IsAtRest)
    (inactive : moment.isActive index registry.nextHandle = false)
    (started : ∀ invocation, 0 < invocation →
      (invocation < (moment.starts before.polls.length).length ↔
        plan.startTime before.now invocation < time)) (invocation : Nat) :
    (later.starts before.polls.length)[invocation]? =
      if invocation = 0 ∨ plan.startTime before.now invocation < time then
        some (plan.startTime before.now invocation)
      else none := by
  have takesTimeMoment := Reaches.takesTime afterwards takesTime
  rcases onTime_of_registered reached available continued takesTimeMoment with
    ⟨poll, isPoll, rfl, isHandle, rfl, counts, _, _⟩
  rcases onTime_of_registered reached available (continued.trans afterwards) takesTime with
    ⟨last, isLast, _, _, _, countsLast, _, onTimeLast⟩
  rw [← isHandle] at inactive
  have reachedMoment : Reaches (start policies) moment :=
    (reached.tail (.register _ available)).trans continued
  rcases afterwards.unfolds isPoll (reachedMoment.knows isPoll) with ⟨phase, isLater, unfolds⟩
  have startedLater : (later.course before.polls.length { poll with phase }).StartedUntil
      poll.plan before.now time := unfolds.startedUntil counts inactive started
  refine getElem?_of_lt_length_iff ?_ (onTimeLast.starts invocation)
  have begun : last.phase ≠ .registered := by
    intro registered
    have rests := (step?_eq_none_iff isLast).mp (atRest before.polls.length)
    simp [Course.Rests, course, registered] at rests
  have nonempty : 0 < (later.starts before.polls.length).length :=
    List.length_pos_iff.mpr (Course.Counts.starts_ne_nil countsLast begun)
  rcases Nat.eq_zero_or_pos invocation with rfl | notFirst
  · simpa using nonempty
  · have later := startedLater invocation notFirst
    simp only [Nat.ne_of_gt notFirst, false_or]
    exact later

/-- A poll keeps to its timetable while it is active, and starts nothing else but its first
invocation afterwards. -/
theorem keepsTimetable_of_registered (reached : Reaches (start policies) before)
    (available : before.registry? index = some registry)
    (continued : Reaches (before.register index registry plan) moment)
    (takesTime : moment.TakesTime) :
    (∀ commands, Reaches moment (moment.run commands)) ∧ moment.settle.IsAtRest ∧
      KeepsTimetable moment before.polls.length index registry.nextHandle plan before.now := by
  refine ⟨reaches_run moment, isAtRest_settle takesTime, ?_⟩
  rcases onTime_of_registered reached available continued takesTime with
    ⟨poll, isPoll, rfl, isHandle, rfl, counts, inTime, onTime⟩
  rw [← isHandle]
  constructor
  case starts => exact onTime.starts
  case finishes => exact onTime.finishes
  case oneAtATime => exact Course.Counts.length_finishes counts
  case startsWhileActive =>
    intro active atRest invocation
    have rests := (step?_eq_none_iff isPoll).mp (atRest before.polls.length)
    exact getElem?_of_lt_length_iff
      (onTime.lt_length_starts_iff counts active rests invocation) (onTime.starts invocation)
  case finishesWhileActive =>
    intro active atRest invocation
    have rests := (step?_eq_none_iff isPoll).mp (atRest before.polls.length)
    exact getElem?_of_lt_length_iff
      (onTime.lt_length_finishes_iff counts active rests invocation)
      (onTime.finishes invocation)
  case startsUntilInactive =>
    intro next later active move inactive afterwards takesTimeLater atRest notAtOnce invocation
    have started := onTime.startedUntil_now counts inTime active notAtOnce
    have same := move.starts_of_deactivates isPoll active inactive
    rw [isHandle] at inactive
    refine starts_of_startedUntil reached available (continued.tail move) afterwards
      takesTimeLater atRest inactive ?_ invocation
    rw [same]
    exact started

end Registered

/-- A poll starts its second invocation on time, and no third one when it is cancelled in the sleep
before it. -/
theorem keepsTimetable_of_cancelled :
    let plan : Plan := ⟨100, fun _ => ⟨50, [], .succeeded⟩⟩
    let before := start [.continue]
    let moment := (before.register 0 (.empty .continue) plan).run [.advance 200, .settle]
    let cancelled := (moment.operate .program (.cancel 0 0)).1
    let later := cancelled.run [.advance 400, .settle]
    Reaches (start [.continue]) before ∧ before.registry? 0 = some (.empty .continue) ∧
      Reaches (before.register 0 (.empty .continue) plan) moment ∧ moment.TakesTime ∧
      KeepsTimetable moment 0 0 ⟨0⟩ plan 0 ∧ (moment.starts 0)[1]? = some 150 ∧
      (later.starts 0)[1]? = some 150 ∧ (later.starts 0)[2]? = none := by
  intro plan before moment cancelled later
  have reached : Reaches (start [.continue]) before := .refl
  have available : before.registry? 0 = some (.empty .continue) := rfl
  have continued : Reaches (before.register 0 (.empty .continue) plan) moment :=
    reaches_run _ _
  have takesTime : ∀ {world : World} {phase : Phase},
      world.polls = [⟨0, ⟨0⟩, .continue, plan, phase⟩] → world.TakesTime := by
    intro world phase polls poll member invocation
    rw [polls, List.mem_singleton] at member
    rw [member]
    change 0 < 50 + 100
    decide
  have polls : ((before.register 0 (.empty .continue) plan).run [.advance 200]).polls =
      [⟨0, ⟨0⟩, .continue, plan, .sleeping 1 300⟩] := by
    simp only [before, plan]
    cbv
  have now : moment.now = 200 := by
    simp only [moment, before, plan]
    cbv
  have active : moment.isActive 0 ⟨0⟩ = true := by
    simp only [moment, before, plan]
    cbv
  have inactive : cancelled.isActive 0 ⟨0⟩ = false := by
    simp only [cancelled, moment, before, plan]
    cbv
  have pollsAfterwards : (cancelled.run [.advance 400]).polls =
      [⟨0, ⟨0⟩, .continue, plan, .ended⟩] := by
    simp only [cancelled, moment, before, plan]
    cbv
  have settles {world : World} (takesTime : world.TakesTime) : world.settle.TakesTime :=
    takesTime_runPolls (takesTime_runPolls takesTime)
  have takesTimeNow : moment.TakesTime := settles (takesTime polls)
  have takesTimeLater : later.TakesTime := settles (takesTime pollsAfterwards)
  have atRest : moment.IsAtRest := isAtRest_settle (takesTime polls)
  have atRestLater : later.IsAtRest := isAtRest_settle (takesTime pollsAfterwards)
  have keeps :=
    (keepsTimetable_of_registered reached available continued takesTimeNow).2.2
  have startTime (invocation : Nat) : plan.startTime 0 invocation = invocation * 150 := by
    simp [Plan.startTime, plan]
  have notAtOnce : ∀ invocation, 0 < invocation → moment.now ≠ plan.startTime 0 invocation := by
    intro invocation _
    rw [now, startTime]
    omega
  have started := keeps.startsWhileActive active atRest
  have startedLater := keeps.startsUntilInactive active (.operate moment (.cancel 0 0)) inactive
    (reaches_run cancelled _) takesTimeLater atRestLater notAtOnce
  rw [now] at started startedLater
  refine ⟨reached, available, continued, takesTimeNow, keeps, ?_, ?_, ?_⟩
  · exact started 1
  · exact startedLater 1
  · exact startedLater 2

end World

end MetricWatch.Polling
