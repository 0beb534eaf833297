import MetricWatch.Proofs.Polling.Course

namespace MetricWatch.Polling

/-! Polls that take time come to rest at every moment, and so everything that the
commands of the program bring about is made of moves. -/

namespace Course

/-- How many steps a poll that takes time has left at most before time must pass. -/
def stepsLeft (course : Course) (plan : Plan) : Nat :=
  match course.phase with
  | .registered => if 0 < plan.interval then 3 else 2
  | .running _ finish =>
      if course.now < finish then 0 else if 0 < plan.interval then 2 else 3
  | .sleeping _ wake =>
      if course.now < wake then 1 else if 0 < plan.interval then 3 else 2
  | .ended => 0

theorem stepsLeft_le (course : Course) (plan : Plan) : course.stepsLeft plan ≤ 3 := by
  unfold stepsLeft
  repeat' split
  all_goals omega

theorem stepsLeft_begin_lt (course : Course) {plan : Plan} (takesTime : plan.TakesTime)
    (invocation : Nat) :
    (course.begin plan invocation).stepsLeft plan < if 0 < plan.interval then 3 else 2 := by
  have positive := takesTime invocation
  by_cases sleeps : 0 < plan.interval
  · simp only [stepsLeft, begin, sleeps, if_true]
    split <;> omega
  · have later : course.now < course.now + (plan.call invocation).duration := by omega
    simp [stepsLeft, begin, sleeps, later]

theorem stepsLeft_finish_lt (course : Course) (plan : Plan) (policy : FailurePolicy)
    (invocation : Nat) :
    (course.finish plan policy invocation).stepsLeft plan <
      if 0 < plan.interval then 2 else 3 := by
  simp only [finish]
  split
  · simp only [stepsLeft]
    repeat' split
    all_goals omega
  · simp only [stepsLeft]
    split <;> omega

theorem stepsLeft_lt_of_step {course next : Course} {plan : Plan} {policy : FailurePolicy}
    (takesTime : plan.TakesTime) (step : course.step? plan policy = some next) :
    next.stepsLeft plan < course.stepsLeft plan := by
  unfold step? at step
  split at step
  · rename_i phase
    cases step
    simpa only [stepsLeft, phase] using stepsLeft_begin_lt course takesTime 0
  · rename_i invocation finish phase
    split at step
    · rename_i due
      cases step
      simpa only [stepsLeft, phase, Nat.not_lt.mpr due, if_false] using
        stepsLeft_finish_lt course plan policy invocation
    · cases step
  · rename_i invocation wake phase
    split at step
    · cases step
      simp only [stepsLeft, phase]
      repeat' split
      all_goals omega
    · split at step
      · rename_i due
        cases step
        simpa only [stepsLeft, phase, Nat.not_lt.mpr due, if_false] using
          stepsLeft_begin_lt course takesTime (invocation + 1)
      · cases step
  · cases step

theorem Rests.lt_due {course : Course} (rests : course.Rests) {due : Nat}
    (isDue : course.phase.due? = some due) : course.now < due := by
  cases phase : course.phase with
  | registered | ended => simp [phase, Phase.due?] at isDue
  | running invocation finish =>
      simp only [Rests, phase, Phase.due?, Option.some.injEq] at rests isDue
      omega
  | sleeping invocation wake =>
      simp only [Rests, phase, Phase.due?, Option.some.injEq] at rests isDue
      omega

theorem Rests.ended {course : Course} (rests : course.Rests)
    (waitsForNothing : course.phase.due? = none) : course.phase = .ended := by
  cases phase : course.phase with
  | registered => simp [Rests, phase] at rests
  | running _ _ | sleeping _ _ => simp [phase, Phase.due?] at waitsForNothing
  | ended => rfl

/-- A quiet poll does nothing without time passing as long as its flag is there, and
without it nothing but to end. -/
def IsQuiet (course : Course) : Prop :=
  match course.phase with
  | .registered => False
  | .running _ finish => course.now < finish
  | .sleeping _ wake => course.isActive → course.now < wake
  | .ended => True

theorem IsQuiet.of_rests {course : Course} (rests : course.Rests) : course.IsQuiet := by
  cases phase : course.phase with
  | registered => simp [Rests, phase] at rests
  | running invocation finish => simpa [Rests, IsQuiet, phase] using rests
  | sleeping invocation wake =>
      simp only [Rests, phase] at rests
      simpa only [IsQuiet, phase] using fun _ => rests.2
  | ended => simp [IsQuiet, phase]

theorem IsQuiet.fading {course : Course} {isActive : Bool} (quiet : course.IsQuiet)
    (fades : isActive → course.isActive) : IsQuiet { course with isActive } := by
  unfold IsQuiet at quiet ⊢
  cases phase : course.phase with
  | registered => simp [phase] at quiet
  | running invocation finish => simpa only [phase] using quiet
  | ended => trivial
  | sleeping invocation wake =>
      simp only [phase] at quiet ⊢
      exact fun active => quiet (fades active)

end Course

namespace World

theorem reaches_runPoll (limit : Nat) (world : World) (number : Nat) :
    Reaches world (world.runPoll limit number) := by
  induction limit generalizing world with
  | zero => exact .refl
  | succ limit induction =>
      simp only [runPoll]
      split
      · exact .refl
      · rename_i next step
        exact (induction next).head (.step number step)

theorem runPoll_of_step?_eq_none {world : World} {number : Nat}
    (atRest : world.step? number = none) (limit : Nat) : world.runPoll limit number = world := by
  cases limit with
  | zero => rfl
  | succ limit => simp only [runPoll, atRest]

theorem reaches_foldl_runPoll (limit : Nat) (world : World) (numbers : List Nat) :
    Reaches world (numbers.foldl (runPoll limit) world) := by
  induction numbers generalizing world with
  | nil => exact .refl
  | cons number numbers induction =>
      exact (reaches_runPoll limit world number).trans (induction _)

theorem reaches_settle (world : World) : Reaches world world.settle :=
  (reaches_foldl_runPoll stepsAtOnce world _).trans (reaches_foldl_runPoll stepsAtOnce _ _)

theorem spares_runPoll {number other : Nat} (different : other ≠ number) (limit : Nat)
    (world : World) : Spares number world (world.runPoll limit other) := by
  induction limit generalizing world with
  | zero => exact .refl number world
  | succ limit induction =>
      simp only [runPoll]
      split
      · exact .refl number world
      · rename_i next step
        exact (spares_of_step different step).trans (induction next)

theorem spares_foldl_runPoll {number : Nat} {numbers : List Nat}
    (notMember : number ∉ numbers) (limit : Nat) (world : World) :
    Spares number world (numbers.foldl (runPoll limit) world) := by
  induction numbers generalizing world with
  | nil => exact .refl number world
  | cons first numbers induction =>
      have different : first ≠ number := fun equal =>
        notMember (equal ▸ List.mem_cons_self)
      have notLater : number ∉ numbers := fun member =>
        notMember (List.mem_cons_of_mem first member)
      exact (spares_runPoll different limit world).trans (induction notLater _)

/-- The steps of a poll that takes time come to an end. -/
theorem step?_runPoll {world : World} {number : Nat} {poll : Poll}
    (isPoll : world.polls[number]? = some poll) (takesTime : poll.plan.TakesTime) {limit : Nat}
    (enough : (world.course number poll).stepsLeft poll.plan < limit) :
    (world.runPoll limit number).step? number = none := by
  induction limit generalizing world poll with
  | zero => exact absurd enough (Nat.not_lt_zero _)
  | succ limit induction =>
      simp only [runPoll]
      cases step : world.step? number with
      | none => exact step
      | some next =>
          rcases step?_of_step isPoll step with ⟨phase, isActive, isPollNext, _, stepped⟩
          have fewer := Course.stepsLeft_lt_of_step takesTime stepped
          exact induction isPollNext takesTime
            (Nat.lt_of_lt_of_le fewer (Nat.le_of_lt_succ enough))

theorem takesTime_of_step {world next : World} {number : Nat} (takesTime : world.TakesTime)
    (step : world.step? number = some next) : next.TakesTime := by
  intro poll member
  rcases List.getElem?_of_mem member with ⟨other, isPoll⟩
  cases earlier : world.polls[other]? with
  | none =>
      rw [getElem?_eq_none_of_step step earlier] at isPoll
      cases isPoll
  | some old =>
      rcases (Moves.step number step).getElem? earlier with ⟨phase, isPollStill⟩
      rw [isPoll, Option.some.injEq] at isPollStill
      subst isPollStill
      have takesTimeStill := takesTime _ (List.mem_of_getElem? earlier)
      exact takesTimeStill

theorem takesTime_runPoll {world : World} (takesTime : world.TakesTime) (limit number : Nat) :
    (world.runPoll limit number).TakesTime := by
  induction limit generalizing world with
  | zero => exact takesTime
  | succ limit induction =>
      simp only [runPoll]
      split
      · exact takesTime
      · rename_i next step
        exact induction (takesTime_of_step takesTime step)

theorem stepsAtOnce_gt (course : Course) (plan : Plan) : course.stepsLeft plan < stepsAtOnce :=
  Nat.lt_of_le_of_lt (course.stepsLeft_le plan) (by decide)

theorem step?_runPoll_stepsAtOnce {world : World} (takesTime : world.TakesTime)
    (number : Nat) : (world.runPoll stepsAtOnce number).step? number = none := by
  cases isPoll : world.polls[number]? with
  | none => simp [stepsAtOnce, runPoll, step?, isPoll]
  | some poll =>
      exact step?_runPoll isPoll (takesTime poll (List.mem_of_getElem? isPoll))
        (stepsAtOnce_gt _ _)

/-! The polls run one after the other. One that has run before another poll cancels it
is asleep by then, and has nothing left to do but to end. -/

def QuietAt (world : World) (number : Nat) : Prop :=
  ∀ poll, world.polls[number]? = some poll → (world.course number poll).IsQuiet

theorem QuietAt.of_step?_eq_none {world : World} {number : Nat}
    (atRest : world.step? number = none) : world.QuietAt number := by
  intro poll isPoll
  exact .of_rests ((step?_eq_none_iff isPoll).mp atRest)

theorem QuietAt.spared {world next : World} {number : Nat} (quiet : world.QuietAt number)
    (spared : Spares number world next) : next.QuietAt number := by
  intro poll isPoll
  rw [spared.poll] at isPoll
  rw [course_of_spares spared]
  exact (quiet poll isPoll).fading spared.fades.isActive

theorem quietAt_foldl_runPoll {world : World} (takesTime : world.TakesTime)
    (numbers : List Nat) {number : Nat} (served : number ∈ numbers ∨ world.QuietAt number) :
    (numbers.foldl (runPoll stepsAtOnce) world).QuietAt number := by
  induction numbers generalizing world with
  | nil => simpa using served
  | cons first numbers induction =>
      refine induction (takesTime_runPoll takesTime stepsAtOnce first) ?_
      by_cases same : first = number
      · subst same
        exact .inr (.of_step?_eq_none (step?_runPoll_stepsAtOnce takesTime first))
      · rcases served with member | quiet
        · rcases List.mem_cons.mp member with equal | later
          · exact absurd equal.symm same
          · exact .inl later
        · exact .inr (quiet.spared (spares_runPoll same stepsAtOnce world))

/-- A step of a quiet poll only ends it, because it has been cancelled asleep. -/
theorem eq_stop_of_quietAt {world next : World} {number : Nat} (quiet : world.QuietAt number)
    (step : world.step? number = some next) :
    ∃ poll, world.polls[number]? = some poll ∧ next = world.stop number poll := by
  cases isPoll : world.polls[number]? with
  | none => simp [step?, isPoll] at step
  | some poll =>
      have isQuiet := quiet poll isPoll
      simp only [step?, isPoll] at step
      simp only [Course.IsQuiet, course] at isQuiet
      refine ⟨poll, rfl, ?_⟩
      cases phase : poll.phase with
      | registered => simp [phase] at isQuiet
      | running invocation finish =>
          simp only [phase] at isQuiet step
          simp [Nat.not_le.mpr isQuiet] at step
      | sleeping invocation wake =>
          simp only [phase] at isQuiet step
          by_cases active : world.isActive poll.registry poll.handle
          · simp [active, Nat.not_le.mpr (isQuiet active)] at step
          · simp only [active, Bool.not_false, if_true, Option.some.injEq] at step
            exact step.symm
      | ended => simp [phase] at step

theorem step?_of_quiet_step {world next : World} {number other : Nat}
    (quiet : world.QuietAt number) (step : world.step? number = some next)
    (atRest : world.step? other = none) : next.step? other = none := by
  have different : number ≠ other := by
    intro equal
    rw [equal, atRest] at step
    cases step
  rcases eq_stop_of_quietAt quiet step with ⟨poll, _, rfl⟩
  have spared := spares_stop different world poll
  cases isOther : world.polls[other]? with
  | none => simp only [step?, spared.poll, isOther]
  | some otherPoll =>
      rw [step?_eq_none_iff isOther] at atRest
      rw [step?_eq_none_iff (spared.poll.trans isOther), course_of_spares spared]
      exact atRest

theorem quietAt_of_quiet_step {world next : World} {number : Nat}
    (quiet : ∀ other, world.QuietAt other) (step : world.step? number = some next)
    (other : Nat) : next.QuietAt other := by
  by_cases same : number = other
  · subst same
    rcases eq_stop_of_quietAt (quiet number) step with ⟨poll, isPoll, rfl⟩
    intro ended isEnded
    rw [getElem?_stop isPoll, Option.some.injEq] at isEnded
    subst isEnded
    trivial
  · exact (quiet other).spared (spares_of_step same step)

theorem quietAt_runPoll {world : World} (quiet : ∀ other, world.QuietAt other)
    (limit number other : Nat) : (world.runPoll limit number).QuietAt other := by
  induction limit generalizing world with
  | zero => exact quiet other
  | succ limit induction =>
      simp only [runPoll]
      split
      · exact quiet other
      · rename_i next step
        exact induction (quietAt_of_quiet_step quiet step)

theorem step?_runPoll_of_quiet {world : World} (quiet : ∀ other, world.QuietAt other)
    (limit number : Nat) {other : Nat} (atRest : world.step? other = none) :
    (world.runPoll limit number).step? other = none := by
  induction limit generalizing world with
  | zero => exact atRest
  | succ limit induction =>
      simp only [runPoll]
      split
      · exact atRest
      · rename_i next step
        exact induction (quietAt_of_quiet_step quiet step)
          (step?_of_quiet_step (quiet number) step atRest)

theorem step?_foldl_runPoll_of_quiet {world : World} (takesTime : world.TakesTime)
    (quiet : ∀ other, world.QuietAt other) (numbers : List Nat) {number : Nat}
    (served : number ∈ numbers ∨ world.step? number = none) :
    (numbers.foldl (runPoll stepsAtOnce) world).step? number = none := by
  induction numbers generalizing world with
  | nil => simpa using served
  | cons first numbers induction =>
      refine induction (takesTime_runPoll takesTime stepsAtOnce first)
        (quietAt_runPoll quiet stepsAtOnce first) ?_
      rcases served with member | atRest
      · rcases List.mem_cons.mp member with rfl | later
        · exact .inr (step?_runPoll_stepsAtOnce takesTime number)
        · exact .inl later
      · exact .inr (step?_runPoll_of_quiet quiet stepsAtOnce first atRest)

theorem takesTime_runPolls {world : World} (takesTime : world.TakesTime) :
    world.runPolls.TakesTime := by
  unfold runPolls
  generalize List.range world.polls.length = numbers
  induction numbers generalizing world with
  | nil => exact takesTime
  | cons first numbers induction =>
      exact induction (takesTime_runPoll takesTime stepsAtOnce first)

/-- Polls that take time have nothing left to do at any moment after two rounds. -/
theorem isAtRest_settle {world : World} (takesTime : world.TakesTime) :
    world.settle.IsAtRest := by
  have outside : ∀ (world : World) number, number ∉ List.range world.polls.length →
      world.step? number = none := by
    intro world number notMember
    have beyond : world.polls.length ≤ number := by simpa using notMember
    simp [step?, List.getElem?_eq_none beyond]
  have quiet : ∀ number, world.runPolls.QuietAt number := by
    intro number
    apply quietAt_foldl_runPoll takesTime
    by_cases inside : number ∈ List.range world.polls.length
    · exact .inl inside
    · exact .inr (.of_step?_eq_none (outside world number inside))
  intro number
  apply step?_foldl_runPoll_of_quiet (takesTime_runPolls takesTime) quiet
  by_cases inside : number ∈ List.range world.runPolls.polls.length
  · exact .inl inside
  · exact .inr (outside world.runPolls number inside)

/-- Every poll has its turn, in which it takes the step that it is ready for. -/
theorem turn_of_settle {world : World} {number : Nat} {poll : Poll}
    (isPoll : world.polls[number]? = some poll) :
    ∃ before, Spares number world before ∧
      (before.step? number = none ∧ Reaches before world.settle ∨
        ∃ next, before.step? number = some next ∧ Reaches next world.settle) := by
  have inside : number ∈ List.range world.polls.length := by
    simpa using (List.getElem?_eq_some_iff.mp isPoll).1
  rcases List.eq_append_cons_of_mem inside with ⟨front, back, split, notBefore⟩
  let before := front.foldl (runPoll stepsAtOnce) world
  have spared : Spares number world before :=
    spares_foldl_runPoll notBefore stepsAtOnce world
  have rest : Reaches (before.runPoll stepsAtOnce number) world.settle := by
    refine .trans ?_ (reaches_foldl_runPoll stepsAtOnce _ _)
    rw [runPolls, split, List.foldl_append, List.foldl_cons]
    exact reaches_foldl_runPoll stepsAtOnce _ back
  refine ⟨before, spared, ?_⟩
  cases step : before.step? number with
  | none =>
      rw [stepsAtOnce, runPoll, step] at rest
      exact .inl ⟨rfl, rest⟩
  | some next =>
      rw [stepsAtOnce, runPoll, step] at rest
      exact .inr ⟨next, rfl, (reaches_runPoll _ next number).trans rest⟩

/-! Commands. -/

theorem lt_due_of_isAtRest {world : World} (atRest : world.IsAtRest) {poll : Poll}
    (member : poll ∈ world.polls) {due : Nat} (isDue : poll.phase.due? = some due) :
    world.now < due := by
  rcases List.getElem?_of_mem member with ⟨number, isPoll⟩
  have rests := (step?_eq_none_iff isPoll).mp (atRest number)
  exact rests.lt_due isDue

/-- At rest the time may pass until the next moment when a poll is due. -/
theorem allows_of_nextDue? {world : World} (atRest : world.TakesTime → world.IsAtRest)
    {duration : Nat} (notBeyond : ∀ due, world.nextDue? = some due →
      world.now < due → world.now + duration ≤ due) : world.Allows duration := by
  refine fun takesTime => ⟨atRest takesTime, fun poll member due isDue => ?_⟩
  have present : due ∈ world.polls.filterMap fun poll => poll.phase.due? :=
    List.mem_filterMap.mpr ⟨poll, member, isDue⟩
  cases isNext : world.nextDue? with
  | none =>
      rw [List.min?_eq_none_iff.mp isNext] at present
      cases present
  | some next =>
      have ⟨isDueNext, first⟩ := List.min?_eq_some_iff.mp isNext
      rcases List.mem_filterMap.mp isDueNext with ⟨other, isMember, isDueOther⟩
      have ahead := lt_due_of_isAtRest (atRest takesTime) isMember isDueOther
      exact Nat.le_trans (notBeyond next isNext ahead) (first due present)

theorem isAtRest_settle_of_takesTime {world : World} (takesTime : world.settle.TakesTime) :
    world.settle.IsAtRest :=
  isAtRest_settle ((reaches_settle world).takesTime takesTime)

section Advance

variable {world : World} {duration due : Nat}

theorem allows_settle_of_none (isNone : world.settle.nextDue? = none) :
    world.settle.Allows duration := by
  refine allows_of_nextDue? isAtRest_settle_of_takesTime fun next isNext => ?_
  cases isNone.symm.trans isNext

theorem allows_settle_of_some (isNext : world.settle.nextDue? = some due)
    (notBeyond : world.settle.now < due → world.settle.now + duration ≤ due) :
    world.settle.Allows duration := by
  refine allows_of_nextDue? isAtRest_settle_of_takesTime fun next isNextToo => ?_
  cases isNext.symm.trans isNextToo
  exact notBeyond

theorem advance_of_none (isNone : world.settle.nextDue? = none) :
    world.advance duration = { world.settle with now := world.settle.now + duration } := by
  rw [advance]
  simp only [isNone]

theorem advance_of_within (isNext : world.settle.nextDue? = some due)
    (within : 0 < due - world.settle.now ∧ due - world.settle.now ≤ duration) :
    world.advance duration =
      { world.settle with now := world.settle.now + (due - world.settle.now) }.advance
        (duration - (due - world.settle.now)) := by
  rw [advance]
  simp only [isNext]
  rw [dif_pos within]

theorem advance_of_beyond (isNext : world.settle.nextDue? = some due)
    (beyond : ¬ (0 < due - world.settle.now ∧ due - world.settle.now ≤ duration)) :
    world.advance duration = { world.settle with now := world.settle.now + duration } := by
  rw [advance]
  simp only [isNext]
  rw [dif_neg beyond]

end Advance

/-- Between two moments when polls are due, the time passes that is allowed to. -/
theorem reaches_advance (world : World) (duration : Nat) :
    Reaches world (world.advance duration) := by
  fun_induction advance world duration with
  | case1 world duration settled isNone =>
      exact (reaches_settle world).tail (.pass duration (allows_settle_of_none isNone))
  | case2 world duration settled due isNext wait within induction =>
      have allowed : settled.Allows wait := allows_settle_of_some isNext fun ahead => by
        change settled.now + wait ≤ due
        omega
      exact ((reaches_settle world).tail (.pass wait allowed)).trans induction
  | case3 world duration settled due isNext wait beyond =>
      have allowed : settled.Allows duration := allows_settle_of_some isNext fun ahead => by
        have ahead : settled.now < due := ahead
        change settled.now + duration ≤ due
        omega
      exact (reaches_settle world).tail (.pass duration allowed)

theorem reaches_perform (world : World) (command : Command) :
    Reaches world (world.perform command).1 := by
  cases command with
  | register index plan canRun =>
      simp only [perform]
      cases available : world.registry? index with
      | none => exact .refl
      | some registry =>
          cases canRun with
          | true => exact .single (.register plan available)
          | false => exact .refl
  | operate operation => exact .single (.operate world operation)
  | advance duration => exact reaches_advance world duration
  | settle => exact reaches_settle world

/-- Every run of commands is made of moves. -/
theorem reaches_run (world : World) (commands : List Command) :
    Reaches world (world.run commands) := by
  unfold run
  induction commands generalizing world with
  | nil => exact .refl
  | cons command commands induction =>
      exact (reaches_perform world command).trans (induction _)

end World

end MetricWatch.Polling
