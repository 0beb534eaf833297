import MetricWatch.Proofs.Polling.Invocations

namespace MetricWatch.Polling

/-! Cancelling is safe. An invocation that has started runs to its own end, whatever
becomes of the handle meanwhile, and the first one always starts; but no other starts
once the handle is inactive. -/

namespace Course

section Unfolding

variable {timely : Prop} {plan : Plan} {policy : FailurePolicy} {course later : Course}

/-- The only start that an inactive handle does not prevent is the first. -/
def StartsNoMore (course later : Course) : Prop :=
  later.isActive = false ∧ (later.starts = course.starts ∨
    course.starts = [] ∧ ∃ time, later.starts = [time])

theorem startsNoMore_step {next : Course} (counts : later.Counts)
    (noMore : course.StartsNoMore later) (step : Step plan policy later next) :
    course.StartsNoMore next := by
  have ⟨inactive, started⟩ := noMore
  cases step with
  | first phase =>
      simp only [Counts, phase] at counts
      rcases started with same | ⟨_, time, one⟩
      · refine ⟨inactive, .inr ⟨same.symm.trans counts.1, later.now, ?_⟩⟩
        simp [begin, counts.1]
      · rw [counts.1] at one
        cases one
  | again phase active due =>
      rw [inactive] at active
      cases active
  | finish phase due =>
      rw [StartsNoMore, starts_finish]
      refine ⟨?_, started⟩
      simp [finish, inactive]
  | stop phase _ => exact ⟨inactive, started⟩

theorem Unfolds.startsNoMore (unfolds : Unfolds timely plan policy course later)
    (counts : course.Counts) (inactive : course.isActive = false) :
    course.StartsNoMore later := by
  have kept : ∀ {later next : Course}, later.Counts ∧ course.StartsNoMore later →
      Proceeds timely plan policy later next → next.Counts ∧ course.StartsNoMore next := by
    intro later next ⟨counts, noMore⟩ proceeds
    refine ⟨counts.proceeds proceeds, ?_⟩
    cases proceeds with
    | deactivate => exact ⟨rfl, noMore.2⟩
    | wait duration => exact noMore
    | step step => exact startsNoMore_step counts noMore (.of_step? step)
  exact (unfolds.keeps kept ⟨counts, inactive, .inl rfl⟩).2

/-- An invocation is in flight, or it has ended as its plan says at its own time. -/
def RunsToItsEnd (timely : Prop) (plan : Plan) (invocation finish : Nat) (course : Course) :
    Prop :=
  course.phase = .running invocation finish ∨
    ∃ time, course.finishes[invocation]? = some ⟨(plan.call invocation).outcome, time⟩ ∧
      finish ≤ time ∧ time ≤ course.now ∧ (timely → time = finish)

theorem RunsToItsEnd.finished {invocation finish : Nat} (counts : course.Counts)
    (inTime : timely → course.IsInTime) (running : course.phase = .running invocation finish)
    (due : finish ≤ course.now) :
    RunsToItsEnd timely plan invocation finish (course.finish plan policy invocation) := by
  simp only [Counts, running] at counts
  refine .inr ⟨course.now, ?_, due, Nat.le_of_eq (now_finish ..).symm, ?_⟩
  · rw [finishes_finish, List.getElem?_append_right (Nat.le_of_eq counts.2)]
    simp [counts.2]
  · intro isTimely
    have notLate := inTime isTimely finish (by rw [running, Phase.due?])
    exact Nat.le_antisymm notLate due

theorem RunsToItsEnd.proceeds {invocation finish : Nat} {next : Course}
    (counts : course.Counts) (inTime : timely → course.IsInTime)
    (runs : RunsToItsEnd timely plan invocation finish course)
    (proceeds : Proceeds timely plan policy course next) :
    RunsToItsEnd timely plan invocation finish next := by
  rcases runs with running | ⟨time, ended, notEarly, past, punctual⟩
  · cases proceeds with
    | deactivate => exact .inl running
    | wait duration => exact .inl running
    | step step =>
        cases Step.of_step? step with
        | first phase | again phase _ _ | stop phase _ =>
            rw [running] at phase
            cases phase
        | finish phase due =>
            rw [running] at phase
            cases phase
            exact .finished counts inTime running due
  · exact .inr ⟨time, getElem?_of_prefix (finishes_of_proceeds proceeds) ended, notEarly,
      Nat.le_trans past (now_of_proceeds proceeds), punctual⟩

theorem Unfolds.runsToItsEnd {invocation finish : Nat}
    (unfolds : Unfolds timely plan policy course later) (counts : course.Counts)
    (inTime : timely → course.IsInTime)
    (runs : RunsToItsEnd timely plan invocation finish course) :
    RunsToItsEnd timely plan invocation finish later := by
  have kept : ∀ {course next : Course},
      course.Counts ∧ (timely → course.IsInTime) ∧
          RunsToItsEnd timely plan invocation finish course →
        Proceeds timely plan policy course next →
          next.Counts ∧ (timely → next.IsInTime) ∧
            RunsToItsEnd timely plan invocation finish next := by
    intro course next ⟨counts, inTime, runs⟩ proceeds
    exact ⟨counts.proceeds proceeds,
      fun isTimely => (inTime isTimely).proceeds isTimely proceeds,
      runs.proceeds counts inTime proceeds⟩
  exact (unfolds.keeps kept ⟨counts, inTime, runs⟩).2.2

theorem Counts.starts_ne_nil (counts : course.Counts) (begun : course.phase ≠ .registered) :
    course.starts ≠ [] := by
  intro none
  cases phase : course.phase with
  | registered => exact begun phase
  | running invocation finish => simp [Counts, phase, none] at counts
  | sleeping invocation wake => simp [Counts, phase, none] at counts
  | ended => simp [Counts, phase, none] at counts

/-- An invocation that makes its poll give up or breaks off takes the flag with it. -/
def LosesItsFlag (policy : FailurePolicy) (course : Course) : Prop :=
  ∀ finish ∈ course.finishes, goesOn (policy.consequence finish.outcome) = false →
    course.isActive = false

theorem LosesItsFlag.proceeds {next : Course} (loses : course.LosesItsFlag policy)
    (proceeds : Proceeds timely plan policy course next) : next.LosesItsFlag policy := by
  cases proceeds with
  | deactivate => exact fun _ _ _ => rfl
  | wait duration => exact loses
  | step step =>
      cases Step.of_step? step with
      | first phase => exact loses
      | again phase active due => exact loses
      | stop phase inactive => exact loses
      | @finish invocation _ phase due =>
          intro found member isLast
          simp only [Course.finish] at member ⊢
          split
          · rename_i goesOnStill
            rw [if_pos goesOnStill] at member
            rw [Bool.and_eq_true] at goesOnStill
            rcases List.mem_append.mp member with earlier | last
            · have inactive := loses found earlier isLast
              rw [inactive] at goesOnStill
              cases goesOnStill.1
            · rw [List.mem_singleton.mp last, goesOnStill.2] at isLast
              cases isLast
          · rfl

end Unfolding

end Course

namespace World

def phase? (world : World) (number : Nat) : Option Phase :=
  world.polls[number]?.map (·.phase)

variable {policies : List FailurePolicy} {world : World} {number : Nat} {poll : Poll}

/-- A poll that is ready for a step has taken it when the world has settled. -/
theorem unfolds_settle_of_not_rests (isPoll : world.polls[number]? = some poll)
    (known : world.Knows poll.registry poll.handle)
    (ready : ∀ isActive, ¬ Course.Rests { world.course number poll with isActive }) :
    ∃ (isActive : Bool) (next : Course) (phase : Phase),
      Course.Step poll.plan poll.policy { world.course number poll with isActive } next ∧
      Course.Unfolds world.settle.TakesTime poll.plan poll.policy next
        (world.settle.course number { poll with phase }) := by
  rcases turn_of_settle isPoll with ⟨before, spared, idle⟩
  have isPollBefore : before.polls[number]? = some poll := spared.poll.trans isPoll
  rcases idle with ⟨atRest, _⟩ | ⟨next, step, rest⟩
  · rw [step?_eq_none_iff isPollBefore, course_of_spares spared] at atRest
    exact absurd atRest (ready _)
  · rcases step?_of_step isPollBefore step with ⟨phase, isActive, isPollNext, _, stepped⟩
    rw [course_of_spares spared] at stepped
    have knownNext := (fades_of_step step).knows (spared.fades.knows known)
    rcases rest.unfolds isPollNext knownNext with ⟨phaseLater, _, unfolds⟩
    exact ⟨isActive, _, phaseLater, .of_step? stepped, unfolds⟩

theorem starts_settle_ne_nil (reached : Reaches (start policies) world)
    (isPoll : world.polls[number]? = some poll) : world.settle.starts number ≠ [] := by
  have known := Reaches.knows reached isPoll
  by_cases registered : poll.phase = .registered
  · have ready : ∀ isActive, ¬ Course.Rests { world.course number poll with isActive } := by
      intro isActive
      simp [Course.Rests, course, registered]
    rcases unfolds_settle_of_not_rests isPoll known ready with
      ⟨isActive, next, phase, step, unfolds⟩
    have begun : next.starts ≠ [] := by
      cases step with
      | first _ => simp [Course.begin]
      | again phase _ _ | finish phase _ | stop phase _ =>
          have impossible := registered.symm.trans phase
          cases impossible
    exact (Course.starts_of_unfolds unfolds).ne_nil begun
  · rcases (reaches_settle world).unfolds isPoll known with ⟨phase, _, unfolds⟩
    have begun := (reached.counts isPoll).starts_ne_nil registered
    exact (Course.starts_of_unfolds unfolds).ne_nil begun

/-! What takes the flag of a poll away: somebody cancels it, or its registry, or drops the
registry. The poll itself does so when it gives up or breaks off. -/

def Deactivates (world : World) (poll : Poll) : Operation → Prop
  | .cancel index target => index = poll.registry ∧ world.handle? target = some poll.handle
  | .cancelAll index | .drop index => index = poll.registry

theorem isActive_operate_of_deactivates {registry : Registry}
    (available : world.registry? poll.registry = some registry) (source : Source)
    {operation : Operation} (deactivates : world.Deactivates poll operation) :
    (world.operate source operation).1.isActive poll.registry poll.handle = false := by
  have present := getElem?_of_available available
  cases operation with
  | cancel index target =>
      rcases deactivates with ⟨rfl, target⟩
      simp only [operate, available, target, cancel]
      split
      · have taken : (world.setRegistry poll.registry (registry.deactivate poll.handle)).isActive
            poll.registry poll.handle = false := by
          rw [isActive_setRegistry present, if_pos rfl, Registry.isActive_deactivate]
          simp
        exact taken
      · rename_i inactive
        rw [isActive_of_getElem? present]
        simpa using inactive
  | cancelAll index =>
      cases deactivates
      simp only [operate, available]
      rw [isActive_setRegistry present, if_pos rfl, Registry.isActive_cancelAll]
  | drop index =>
      cases deactivates
      simp only [operate, available]
      rw [isActive_setRegistry present, if_pos rfl]
      exact Registry.isActive_cancelAll registry poll.handle

theorem losesItsFlag (reached : Reaches (start policies) world)
    (isPoll : world.polls[number]? = some poll) :
    (world.course number poll).LosesItsFlag poll.policy := by
  have initially : ∀ (plan : Plan) (policy : FailurePolicy) (now : Nat),
      (Course.registered now).LosesItsFlag policy := by
    intro plan policy now finish member
    cases member
  have kept : ∀ {plan : Plan} {policy : FailurePolicy} {course next : Course},
      course.LosesItsFlag policy → Course.Proceeds False plan policy course next →
        next.LosesItsFlag policy :=
    fun loses proceeds => loses.proceeds proceeds
  exact reached.holds False.elim initially kept isPoll

section Later

variable {earlier later : World}

theorem startsNoMore (reached : Reaches (start policies) earlier)
    (continued : Reaches earlier later) (isPoll : earlier.polls[number]? = some poll)
    (inactive : earlier.isActive poll.registry poll.handle = false) :
    later.isActive poll.registry poll.handle = false ∧
      (later.starts number = earlier.starts number ∨
        earlier.starts number = [] ∧ ∃ time, later.starts number = [time]) := by
  rcases continued.unfolds isPoll (reached.knows isPoll) with ⟨phase, _, unfolds⟩
  have noMore := unfolds.startsNoMore (reached.counts isPoll) inactive
  exact noMore

theorem runsToItsEnd (reached : Reaches (start policies) earlier)
    (continued : Reaches earlier later) (isPoll : earlier.polls[number]? = some poll)
    {invocation finish : Nat} (running : poll.phase = .running invocation finish) :
    ∃ phase, later.polls[number]? = some { poll with phase } ∧
      Course.RunsToItsEnd later.TakesTime poll.plan invocation finish
        (later.course number { poll with phase }) := by
  rcases continued.unfolds isPoll (reached.knows isPoll) with ⟨phase, isPollLater, unfolds⟩
  have inTime : later.TakesTime → (earlier.course number poll).IsInTime := fun takesTime =>
    reached.isInTime (continued.takesTime takesTime) isPoll
  exact ⟨phase, isPollLater, unfolds.runsToItsEnd (reached.counts isPoll) inTime (.inl running)⟩

/-- An invocation whose time has come has ended when the world has settled. -/
theorem finishes_settle (reached : Reaches (start policies) world)
    (isPoll : world.polls[number]? = some poll) {invocation finish : Nat}
    (running : poll.phase = .running invocation finish) (due : finish ≤ world.now) :
    (world.settle.finishes number)[invocation]? =
      some ⟨(poll.plan.call invocation).outcome, world.now⟩ := by
  have ready : ∀ isActive, ¬ Course.Rests { world.course number poll with isActive } := by
    intro isActive
    simp [Course.Rests, course, running, due]
  rcases unfolds_settle_of_not_rests isPoll (reached.knows isPoll) ready with
    ⟨isActive, next, phase, step, unfolds⟩
  have counts := reached.counts isPoll
  simp only [Course.Counts, course, running] at counts
  have ended : next.finishes[invocation]? =
      some ⟨(poll.plan.call invocation).outcome, world.now⟩ := by
    cases step with
    | first phase | again phase _ _ | stop phase _ =>
        have impossible := running.symm.trans phase
        cases impossible
    | finish phase _ =>
        have same := running.symm.trans phase
        cases same
        rw [Course.finishes_finish, course, ← counts.2]
        exact List.getElem?_concat_length
  exact getElem?_of_prefix (Course.finishes_of_unfolds unfolds) ended

end Later

/-- What cancelling can and cannot do to a poll between two moments. -/
structure CancelsSafely (earlier later : World) (number : Nat) (poll : Poll) : Prop where
  deactivates : ∀ {registry source operation},
    earlier.registry? poll.registry = some registry → earlier.Deactivates poll operation →
      (earlier.operate source operation).1.isActive poll.registry poll.handle = false
  losesItsFlag : ∀ finish ∈ earlier.finishes number,
    Course.goesOn (poll.policy.consequence finish.outcome) = false →
      earlier.isActive poll.registry poll.handle = false
  startsNoMore : earlier.isActive poll.registry poll.handle = false →
    later.isActive poll.registry poll.handle = false ∧
      (later.starts number = earlier.starts number ∨
        earlier.starts number = [] ∧ ∃ time, later.starts number = [time])
  keepsRunning : ∀ {invocation finish}, poll.phase = .running invocation finish →
    later.now < finish → later.phase? number = some (.running invocation finish)
  runsToItsEnd : ∀ {invocation finish}, poll.phase = .running invocation finish →
    finish ≤ later.now → ∃ time, finish ≤ time ∧ (later.TakesTime → time = finish) ∧
      (later.settle.finishes number)[invocation]? =
        some ⟨(poll.plan.call invocation).outcome, time⟩
  startsFirst : later.settle.starts number ≠ []
  startsOnce : earlier.isActive poll.registry poll.handle = false →
    earlier.starts number = [] → ∃ time, later.settle.starts number = [time]
  inOrder : ∀ {invocation finish}, later.phase? number = some (.running invocation finish) →
    (later.starts number).length = invocation + 1

/-- A cancelled poll starts no invocation but its first, which always starts, and every
invocation that has started runs to its own end. -/
theorem cancelsSafely_of_reaches {earlier later : World}
    (reached : Reaches (start policies) earlier) (continued : Reaches earlier later)
    (isPoll : earlier.polls[number]? = some poll) :
    (∀ commands, Reaches later (later.run commands)) ∧
      CancelsSafely earlier later number poll := by
  have reachedLater : Reaches (start policies) later := reached.trans continued
  refine ⟨reaches_run later, ?_⟩
  constructor
  case deactivates =>
    exact fun available deactivates =>
      isActive_operate_of_deactivates available _ deactivates
  case losesItsFlag => exact losesItsFlag reached isPoll
  case startsNoMore => exact startsNoMore reached continued isPoll
  case keepsRunning =>
    intro invocation finish running before
    rcases runsToItsEnd reached continued isPoll running with ⟨phase, isPollLater, ends⟩
    rcases ends with still | ⟨time, _, notEarly, past, _⟩
    · have stillRunning : phase = .running invocation finish := still
      rw [phase?, isPollLater, ← stillRunning, Option.map_some]
    · exact absurd (Nat.le_trans notEarly past) (Nat.not_le.mpr before)
  case runsToItsEnd =>
    intro invocation finish running due
    rcases runsToItsEnd reached continued isPoll running with ⟨phase, isPollLater, ends⟩
    rcases ends with still | ⟨time, ended, notEarly, _, punctual⟩
    · refine ⟨later.now, due, fun takesTime => ?_,
        finishes_settle reachedLater isPollLater still due⟩
      have notLate := reachedLater.isInTime takesTime isPollLater finish
        (by rw [show _ = Phase.running invocation finish from still, Phase.due?])
      exact Nat.le_antisymm notLate due
    · have settled := (reaches_settle later).unfolds isPollLater
        (reachedLater.knows isPollLater)
      rcases settled with ⟨_, _, unfolds⟩
      exact ⟨time, notEarly, punctual,
        getElem?_of_prefix (Course.finishes_of_unfolds unfolds) ended⟩
  case startsFirst =>
    rcases continued.unfolds isPoll (reached.knows isPoll) with ⟨phase, isPollLater, _⟩
    exact starts_settle_ne_nil reachedLater isPollLater
  case startsOnce =>
    intro inactive none
    rcases continued.unfolds isPoll (reached.knows isPoll) with ⟨phase, isPollLater, _⟩
    have started := starts_settle_ne_nil reachedLater isPollLater
    have noMore := startsNoMore reached (continued.trans (reaches_settle later)) isPoll inactive
    rcases noMore.2 with same | ⟨_, one⟩
    · exact absurd (same.trans none) started
    · exact one
  case inOrder =>
    intro invocation finish running
    rcases continued.unfolds isPoll (reached.knows isPoll) with ⟨phase, isPollLater, _⟩
    simp only [phase?, isPollLater, Option.map_some, Option.some.injEq] at running
    have counts := reachedLater.counts isPollLater
    simp only [Course.Counts, course, running] at counts
    exact counts.1

/-- A poll that is cancelled while its first callback runs. -/
theorem cancelsSafely_while_running :
    let plan : Plan := ⟨100, fun _ => ⟨50, [], .succeeded⟩⟩
    let earlier := (start [.continue]).run [.register 0 plan true, .settle]
    let later := earlier.run [.operate (.cancel 0 0), .advance 1000]
    Reaches (start [.continue]) earlier ∧ Reaches earlier later ∧
      earlier.polls[0]? = some ⟨0, ⟨0⟩, .continue, plan, .running 0 50⟩ ∧
      CancelsSafely earlier later 0 ⟨0, ⟨0⟩, .continue, plan, .running 0 50⟩ := by
  intro plan earlier later
  have reached : Reaches (start [.continue]) earlier := reaches_run _ _
  have continued : Reaches earlier later := reaches_run _ _
  have isPoll : earlier.polls[0]? = some ⟨0, ⟨0⟩, .continue, plan, .running 0 50⟩ := rfl
  exact ⟨reached, continued, isPoll, (cancelsSafely_of_reaches reached continued isPoll).2⟩

end World

end MetricWatch.Polling
