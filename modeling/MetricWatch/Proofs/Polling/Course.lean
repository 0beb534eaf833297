import MetricWatch.Proofs.Polling.Moves

namespace MetricWatch.Polling

/-! The world as one poll sees it. Whatever else happens there, it only lets time
pass or deactivates the handle of the poll, so that its course is that of a single
loop with one flag. -/

structure Course where
  now : Nat
  isActive : Bool
  phase : Phase
  starts : List Nat
  finishes : List Finish

namespace Course

def begin (course : Course) (plan : Plan) (invocation : Nat) : Course :=
  { course with
    phase := .running invocation (course.now + (plan.call invocation).duration)
    starts := course.starts ++ [course.now] }

def goesOn : Consequence → Bool
  | .goOn _ => true
  | .giveUp _ | .breakOff => false

/-- An invocation ends as its plan says, and the poll goes to sleep or ends itself. -/
def finish (course : Course) (plan : Plan) (policy : FailurePolicy) (invocation : Nat) :
    Course :=
  let outcome := (plan.call invocation).outcome
  let finishes := course.finishes ++ [⟨outcome, course.now⟩]
  if course.isActive && goesOn (policy.consequence outcome) then
    { course with phase := .sleeping invocation (course.now + plan.interval), finishes }
  else { course with isActive := false, phase := .ended, finishes }

def step? (course : Course) (plan : Plan) (policy : FailurePolicy) : Option Course :=
  match course.phase with
  | .registered => some (course.begin plan 0)
  | .running invocation finish =>
      if finish ≤ course.now then some (course.finish plan policy invocation) else none
  | .sleeping invocation wake =>
      if !course.isActive then some { course with phase := .ended }
      else if wake ≤ course.now then some (course.begin plan (invocation + 1))
      else none
  | .ended => none

/-- A course is at rest until its time has come or its flag is taken away. -/
def Rests (course : Course) : Prop :=
  match course.phase with
  | .registered => False
  | .running _ finish => course.now < finish
  | .sleeping _ wake => course.isActive ∧ course.now < wake
  | .ended => True

/-- A poll in a world whose polls all take time is timely: it is at rest whenever
time passes, and time does not pass beyond the moment when it is due. -/
inductive Proceeds (timely : Prop) (plan : Plan) (policy : FailurePolicy) :
    Course → Course → Prop
  | deactivate (course : Course) :
      Proceeds timely plan policy course { course with isActive := false }
  | wait (course : Course) (duration : Nat) :
      (timely → course.Rests ∧
        ∀ due, course.phase.due? = some due → course.now + duration ≤ due) →
      Proceeds timely plan policy course { course with now := course.now + duration }
  | step {course next : Course} :
      course.step? plan policy = some next → Proceeds timely plan policy course next

abbrev Unfolds (timely : Prop) (plan : Plan) (policy : FailurePolicy) :
    Course → Course → Prop :=
  Relation.ReflTransGen (Proceeds timely plan policy)

end Course

/-- What a poll asks of registries in its next step. -/
def Poll.callback (poll : Poll) : List Operation :=
  match poll.phase with
  | .running invocation _ => (poll.plan.call invocation).operations
  | .registered | .sleeping _ _ | .ended => []

namespace World

def isActiveAfter (world : World) (number : Nat) (operations : List Operation)
    (registry : Nat) (handle : Handle) : Bool :=
  (operations.foldl (operateInside number) world).isActive registry handle

def course (world : World) (number : Nat) (poll : Poll) : Course where
  now := world.now
  isActive := world.isActive poll.registry poll.handle
  phase := poll.phase
  starts := world.starts number
  finishes := world.finishes number

theorem getElem?_setPhase {world : World} {number : Nat} {poll : Poll}
    (isPoll : world.polls[number]? = some poll) (phase : Phase) :
    (world.setPhase number phase).polls[number]? = some { poll with phase } := by
  simp [setPhase, isPoll]

section OwnSteps

variable {world : World} {number : Nat} {poll : Poll}

theorem course_begin (invocation : Nat) :
    (world.begin number poll invocation).course number
        { poll with
          phase := .running invocation (world.now + (poll.plan.call invocation).duration) } =
      (world.course number poll).begin poll.plan invocation := by
  simp only [course, Course.begin, begin, starts_write, finishes_write, Entry.start?,
    Entry.finish?, Option.toList]
  simp [isActive, starts, finishes, setPhase, write]

theorem course_stop :
    (world.stop number poll).course number { poll with phase := .ended } =
      { world.course number poll with phase := .ended } := by
  simp only [course, stop, starts_write, finishes_write, Entry.start?, Entry.finish?,
    Option.toList, List.append_nil]
  rfl

theorem getElem?_begin (isPoll : world.polls[number]? = some poll) (invocation : Nat) :
    (world.begin number poll invocation).polls[number]? =
      some { poll with
        phase := .running invocation (world.now + (poll.plan.call invocation).duration) } :=
  getElem?_setPhase isPoll _

theorem getElem?_stop (isPoll : world.polls[number]? = some poll) :
    (world.stop number poll).polls[number]? = some { poll with phase := .ended } :=
  getElem?_setPhase isPoll _

theorem course_of_spares {next : World} (spared : Spares number world next) :
    next.course number poll =
      { world.course number poll with
        isActive := next.isActive poll.registry poll.handle } := by
  simp only [course, spared.now, spared.starts, spared.finishes]

theorem course_rest (isPoll : world.polls[number]? = some poll) (invocation : Nat) :
    ∃ phase, (world.rest number poll invocation).polls[number]? = some { poll with phase } ∧
      (world.rest number poll invocation).course number { poll with phase } =
        if world.isActive poll.registry poll.handle then
          { world.course number poll with
            phase := .sleeping invocation (world.now + poll.plan.interval) }
        else { world.course number poll with phase := .ended } := by
  cases active : world.isActive poll.registry poll.handle with
  | true =>
      refine ⟨.sleeping invocation (world.now + poll.plan.interval), ?_⟩
      simp only [rest, active, if_true]
      exact ⟨getElem?_setPhase isPoll _, rfl⟩
  | false =>
      refine ⟨.ended, ?_⟩
      simp only [rest, active, Bool.false_eq_true, if_false]
      exact ⟨getElem?_stop isPoll, course_stop⟩

/-- What follows an invocation depends on the poll's own flag and nothing else. -/
theorem course_follow (isPoll : world.polls[number]? = some poll) (invocation : Nat)
    (consequence : Consequence) :
    ∃ phase, (world.follow number poll invocation consequence).polls[number]? =
        some { poll with phase } ∧
      (world.follow number poll invocation consequence).course number { poll with phase } =
        if world.isActive poll.registry poll.handle && Course.goesOn consequence then
          { world.course number poll with
            phase := .sleeping invocation (world.now + poll.plan.interval) }
        else { world.course number poll with isActive := false, phase := .ended } := by
  cases consequence with
  | goOn report =>
      have spared : Spares number world (world.writeRetry number poll report) := by
        cases report with
        | none => exact .refl number world
        | some message => exact .notice number world _ _
      have activity : (world.writeRetry number poll report).isActive poll.registry poll.handle =
          world.isActive poll.registry poll.handle := by
        cases report <;> rfl
      rcases course_rest (spared.poll.trans isPoll) invocation with ⟨phase, isPollStill, equal⟩
      refine ⟨phase, isPollStill, equal.trans ?_⟩
      rw [course_of_spares spared, activity, spared.now]
      cases active : world.isActive poll.registry poll.handle <;>
        simp [course, Course.goesOn, active]
  | giveUp report =>
      have spared := (Spares.notice number world (.poll number)
        (.stopping poll.handle report)).trans (.deactivate number _ poll.registry poll.handle)
      refine ⟨.ended, getElem?_stop (spared.poll.trans isPoll), course_stop.trans ?_⟩
      rw [course_of_spares spared, isActive_deactivate_self]
      simp [Course.goesOn]
  | breakOff =>
      have spared := Spares.deactivate number world poll.registry poll.handle
      refine ⟨.ended, getElem?_setPhase (spared.poll.trans isPoll) _, ?_⟩
      have equal : (world.deactivate poll.registry poll.handle).course number poll =
          { world.course number poll with isActive := false } := by
        rw [course_of_spares spared, isActive_deactivate_self]
      simp only [Course.goesOn, Bool.and_false, Bool.false_eq_true, if_false]
      exact congrArg (fun course : Course => { course with phase := .ended }) equal

/-- A flag that fades is either still there or has been taken away. -/
theorem unfolds_of_fading (timely : Prop) (plan : Plan) (policy : FailurePolicy)
    {course : Course} {isActive : Bool} (fades : isActive → course.isActive) :
    Course.Unfolds timely plan policy course { course with isActive } := by
  cases isActive with
  | true =>
      have same : { course with isActive := true } = course := by
        rw [← fades rfl]
      rw [same]
  | false => exact .single (.deactivate course)

theorem unfolds_of_spares {next : World} (timely : Prop) (spared : Spares number world next) :
    Course.Unfolds timely poll.plan poll.policy (world.course number poll)
      (next.course number poll) := by
  rw [course_of_spares spared]
  exact unfolds_of_fading timely _ _ spared.fades.isActive

/-- A poll may cancel itself in its callback, which counts before the invocation has
ended. -/
theorem step?_of_finish (isPoll : world.polls[number]? = some poll)
    {invocation finish : Nat} (running : poll.phase = .running invocation finish)
    (due : finish ≤ world.now) :
    ∃ phase, (world.finish number poll invocation).polls[number]? = some { poll with phase } ∧
      { world.course number poll with
        isActive := world.isActiveAfter number poll.callback poll.registry poll.handle }.step?
          poll.plan poll.policy =
        some ((world.finish number poll invocation).course number { poll with phase }) := by
  let call := poll.plan.call invocation
  let operated := call.operations.foldl (operateInside number) world
  have spared : Spares number world operated := .operations number number world _
  let written := operated.write (.poll number) (.finished call.outcome world.now)
  have isPollStill : written.polls[number]? = some poll := spared.poll.trans isPoll
  rcases course_follow isPollStill invocation (poll.policy.consequence call.outcome) with
    ⟨phase, isPollAfter, equal⟩
  have activity : written.isActive poll.registry poll.handle =
      operated.isActive poll.registry poll.handle := rfl
  have now : written.now = operated.now := rfl
  have starts : written.starts number = operated.starts number := by
    rw [starts_write]
    simp [Entry.start?]
  have finishes : written.finishes number =
      operated.finishes number ++ [⟨call.outcome, operated.now⟩] := by
    rw [finishes_write, spared.now]
    simp [Entry.finish?]
  have stillDue : finish ≤ operated.now := Nat.le_trans due (Nat.le_of_eq spared.now.symm)
  have stepped : (operated.course number poll).step? poll.plan poll.policy =
      some ((written.follow number poll invocation
        (poll.policy.consequence call.outcome)).course number { poll with phase }) := by
    rw [equal]
    simp only [Course.step?, course, running, stillDue, if_true, Course.finish,
      activity, now, starts, finishes]
    rfl
  rw [course_of_spares spared] at stepped
  refine ⟨phase, isPollAfter, ?_⟩
  rw [isActiveAfter, Poll.callback, running]
  exact stepped

/-- A step of a poll, as the poll itself sees it. -/
theorem course_of_step {next : World} (isPoll : world.polls[number]? = some poll)
    (step : world.step? number = some next) :
    ∃ phase, next.polls[number]? = some { poll with phase } ∧
      { world.course number poll with
        isActive := world.isActiveAfter number poll.callback poll.registry poll.handle }.step?
          poll.plan poll.policy = some (next.course number { poll with phase }) := by
  simp only [step?, isPoll] at step
  cases phase : poll.phase with
  | registered =>
      simp only [phase, Option.some.injEq] at step
      subst step
      refine ⟨_, getElem?_begin isPoll 0, ?_⟩
      rw [course_begin]
      simp only [Course.step?, course, phase, isActiveAfter, Poll.callback, List.foldl_nil]
  | running invocation finish =>
      simp only [phase, Option.ite_none_right_eq_some, Option.some.injEq] at step
      rcases step with ⟨due, rfl⟩
      exact step?_of_finish isPoll phase due
  | sleeping invocation wake =>
      simp only [phase] at step
      by_cases active : world.isActive poll.registry poll.handle
      · simp only [active, Bool.not_true, Bool.false_eq_true, if_false,
          Option.ite_none_right_eq_some, Option.some.injEq] at step
        rcases step with ⟨due, rfl⟩
        refine ⟨_, getElem?_begin isPoll (invocation + 1), ?_⟩
        rw [course_begin]
        simp only [Course.step?, course, phase, isActiveAfter, Poll.callback, List.foldl_nil,
          active, due, Bool.not_true, Bool.false_eq_true, if_false, if_true]
      · simp only [active, Bool.not_false, if_true, Option.some.injEq] at step
        subst step
        refine ⟨_, getElem?_stop isPoll, ?_⟩
        rw [course_stop]
        simp only [Course.step?, course, phase, isActiveAfter, Poll.callback, List.foldl_nil,
          active, Bool.not_false, if_true]
  | ended => simp [phase] at step

theorem step?_of_step {next : World} (isPoll : world.polls[number]? = some poll)
    (step : world.step? number = some next) :
    ∃ (phase : Phase) (isActive : Bool), next.polls[number]? = some { poll with phase } ∧
      (isActive → world.isActive poll.registry poll.handle) ∧
      { world.course number poll with isActive }.step? poll.plan poll.policy =
        some (next.course number { poll with phase }) := by
  rcases course_of_step isPoll step with ⟨phase, isPollNext, stepped⟩
  have fades := (Spares.operations number number world poll.callback).fades
  exact ⟨phase, _, isPollNext, fades.isActive, stepped⟩

theorem step?_eq_none_iff (isPoll : world.polls[number]? = some poll) :
    world.step? number = none ↔ (world.course number poll).Rests := by
  simp only [step?, isPoll, Course.Rests, course]
  cases poll.phase with
  | registered | ended => simp
  | running invocation finish => simp
  | sleeping invocation wake =>
      by_cases active : world.isActive poll.registry poll.handle
      · simp [active]
      · simp [active]

end OwnSteps

theorem spares_stop {number other : Nat} (different : other ≠ number) (world : World)
    (poll : Poll) : Spares number world (world.stop other poll) :=
  (Spares.setPhase_of_ne different world .ended).trans (.write_of_ne different _ _)

theorem spares_begin {number other : Nat} (different : other ≠ number) (world : World)
    (poll : Poll) (invocation : Nat) :
    Spares number world (world.begin other poll invocation) :=
  (Spares.setPhase_of_ne different world _).trans (.write_of_ne different _ _)

theorem spares_follow {number other : Nat} (different : other ≠ number) (world : World)
    (poll : Poll) (invocation : Nat) (consequence : Consequence) :
    Spares number world (world.follow other poll invocation consequence) := by
  cases consequence with
  | goOn report =>
      have retried : Spares number world (world.writeRetry other poll report) := by
        cases report with
        | none => exact .refl number world
        | some message => exact .notice number world _ _
      refine retried.trans ?_
      simp only [follow, rest]
      split
      · exact .setPhase_of_ne different _ _
      · exact spares_stop different _ poll
  | giveUp report =>
      exact (Spares.notice number world _ _).trans
        ((Spares.deactivate number _ _ _).trans (spares_stop different _ poll))
  | breakOff =>
      exact (Spares.deactivate number world _ _).trans (.setPhase_of_ne different _ _)

theorem spares_finish {number other : Nat} (different : other ≠ number) (world : World)
    (poll : Poll) (invocation : Nat) :
    Spares number world (world.finish other poll invocation) :=
  (Spares.operations number other world _).trans
    ((Spares.write_of_ne different _ _).trans (spares_follow different _ poll invocation _))

/-- The steps of one poll leave the others alone. -/
theorem spares_of_step {number other : Nat} {world next : World} (different : other ≠ number)
    (step : world.step? other = some next) : Spares number world next := by
  unfold step? at step
  split at step
  · cases step
  · rename_i poll isPoll
    split at step
    · cases step
      exact spares_begin different world poll 0
    · split at step
      · cases step
        exact spares_finish different world poll _
      · cases step
    · split at step
      · cases step
        exact spares_stop different world poll
      · split at step
        · cases step
          exact spares_begin different world poll _
        · cases step
    · cases step

theorem fades_of_step {number : Nat} {world next : World}
    (step : world.step? number = some next) : world.Fades next :=
  have spared : Spares (number + 1) world next :=
    spares_of_step (Nat.ne_of_lt (Nat.lt_succ_self number)) step
  spared.fades

theorem getElem?_eq_none_of_step {number other : Nat} {world next : World}
    (step : world.step? other = some next) (isNone : world.polls[number]? = none) :
    next.polls[number]? = none := by
  by_cases same : other = number
  · subst same
    simp [step?, isNone] at step
  · exact (spares_of_step same step).poll.trans isNone

theorem getElem?_register {world : World} {number : Nat} {poll : Poll} {index : Nat}
    {registry : Registry} (plan : Plan) (isPoll : world.polls[number]? = some poll) :
    (world.register index registry plan).polls[number]? = some poll := by
  have below : number < world.polls.length := (List.getElem?_eq_some_iff.mp isPoll).1
  change (world.polls ++ [_])[number]? = some poll
  rw [List.getElem?_append_left below, isPoll]

theorem starts_register {world : World} {index : Nat} {registry : Registry} (plan : Plan)
    (number : Nat) :
    (world.register index registry plan).starts number = world.starts number :=
  (starts_write _ _ _ number).trans (List.append_nil _)

theorem finishes_register {world : World} {index : Nat} {registry : Registry} (plan : Plan)
    (number : Nat) :
    (world.register index registry plan).finishes number = world.finishes number :=
  (finishes_write _ _ _ number).trans (List.append_nil _)

theorem course_register {world : World} {number : Nat} {poll : Poll} {index : Nat}
    {registry : Registry} (plan : Plan) (present : world.registries[index]? = some registry)
    (known : world.Knows poll.registry poll.handle) :
    (world.register index registry plan).course number poll = world.course number poll := by
  simp only [course, starts_register, finishes_register, isActive_register plan present known]
  rfl

end World

/-! From the steps of single polls to everything that may happen. -/

theorem Moves.knows {world next : World} (move : Moves world next) {index : Nat}
    {handle : Handle} (known : world.Knows index handle) : next.Knows index handle := by
  cases move with
  | step number step => exact (World.fades_of_step step).knows known
  | operate operation => exact (World.fades_operate world _ operation).knows known
  | register plan available =>
      exact World.knows_register plan (World.getElem?_of_available available) known
  | pass duration allowed => exact known

/-- One move, as a poll sees it that has been registered before. -/
theorem Moves.unfolds {world next : World} (move : Moves world next) {number : Nat}
    {poll : Poll} (isPoll : world.polls[number]? = some poll)
    (known : world.Knows poll.registry poll.handle) {timely : Prop}
    (takesTime : timely → world.TakesTime) :
    ∃ phase, next.polls[number]? = some { poll with phase } ∧
      Course.Unfolds timely poll.plan poll.policy (world.course number poll)
        (next.course number { poll with phase }) := by
  cases move with
  | step other step =>
      by_cases same : other = number
      · subst same
        rcases World.step?_of_step isPoll step with ⟨phase, _, isPollNext, fades, stepped⟩
        exact ⟨phase, isPollNext,
          (World.unfolds_of_fading timely _ _ fades).tail (.step stepped)⟩
      · have spared := World.spares_of_step same step
        exact ⟨poll.phase, spared.poll.trans isPoll, World.unfolds_of_spares timely spared⟩
  | operate operation =>
      have spared := World.Spares.operate number world .program operation
      exact ⟨poll.phase, spared.poll.trans isPoll, World.unfolds_of_spares timely spared⟩
  | @register index registry plan available =>
      have present := World.getElem?_of_available available
      refine ⟨poll.phase, World.getElem?_register plan isPoll, ?_⟩
      rw [World.course_register plan present known]
  | pass duration allowed =>
      refine ⟨poll.phase, isPoll, .single (.wait (world.course number poll) duration ?_)⟩
      intro isTimely
      have ⟨atRest, notBeyond⟩ := allowed (takesTime isTimely)
      exact ⟨(World.step?_eq_none_iff isPoll).mp (atRest number),
        notBeyond poll (List.mem_of_getElem? isPoll)⟩

theorem Moves.getElem? {world next : World} (move : Moves world next) {number : Nat}
    {poll : Poll} (isPoll : world.polls[number]? = some poll) :
    ∃ phase, next.polls[number]? = some { poll with phase } := by
  cases move with
  | step other step =>
      by_cases same : other = number
      · subst same
        rcases World.step?_of_step isPoll step with ⟨phase, _, isPollStill, _⟩
        exact ⟨phase, isPollStill⟩
      · exact ⟨poll.phase, (World.spares_of_step same step).poll.trans isPoll⟩
  | operate operation =>
      exact ⟨poll.phase, (World.Spares.operate number world .program operation).poll.trans isPoll⟩
  | register plan available => exact ⟨poll.phase, World.getElem?_register plan isPoll⟩
  | pass duration allowed => exact ⟨poll.phase, isPoll⟩

theorem Moves.takesTime {world next : World} (move : Moves world next)
    (takesTime : next.TakesTime) : world.TakesTime := by
  intro poll member
  rcases List.getElem?_of_mem member with ⟨number, isPoll⟩
  rcases move.getElem? isPoll with ⟨phase, isPollStill⟩
  have takesTimeStill := takesTime _ (List.mem_of_getElem? isPollStill)
  exact takesTimeStill

theorem Reaches.takesTime {world later : World} (reached : Reaches world later)
    (takesTime : later.TakesTime) : world.TakesTime := by
  induction reached using Relation.ReflTransGen.head_induction_on with
  | refl => exact takesTime
  | head move _ induction => exact move.takesTime induction

/-- Only registering makes a poll. -/
theorem Moves.new_poll {world next : World} (move : Moves world next) {number : Nat}
    {poll : Poll} (isPoll : next.polls[number]? = some poll)
    (isNew : world.polls[number]? = none) :
    ∃ index registry plan, world.registry? index = some registry ∧
      next = world.register index registry plan ∧ number = world.polls.length ∧
      poll = ⟨index, registry.nextHandle, registry.policy, plan, .registered⟩ := by
  cases move with
  | step other step =>
      rw [World.getElem?_eq_none_of_step step isNew] at isPoll
      cases isPoll
  | operate operation =>
      rw [(World.Spares.operate number world .program operation).poll, isNew] at isPoll
      cases isPoll
  | @register index registry plan available =>
      have beyond : world.polls.length ≤ number := List.getElem?_eq_none_iff.mp isNew
      change (world.polls ++ [_])[number]? = some poll at isPoll
      rw [List.getElem?_append_right beyond, List.getElem?_singleton] at isPoll
      split at isPoll
      · rename_i isFirst
        cases isPoll
        exact ⟨index, registry, plan, available, rfl, by omega, rfl⟩
      · cases isPoll
  | pass duration allowed =>
      rw [show _ = world.polls[number]? from rfl, isNew] at isPoll
      cases isPoll

theorem Reaches.knows {policies : List FailurePolicy} {world : World}
    (reached : Reaches (World.start policies) world) {number : Nat} {poll : Poll}
    (isPoll : world.polls[number]? = some poll) : world.Knows poll.registry poll.handle := by
  induction reached generalizing poll with
  | refl => simp [World.start] at isPoll
  | @tail before after _ move induction =>
      cases earlier : before.polls[number]? with
      | none =>
          rcases move.new_poll isPoll earlier with ⟨_, _, plan, available, rfl, _, rfl⟩
          exact World.knows_register_nextHandle plan (World.getElem?_of_available available)
      | some old =>
          rcases move.getElem? earlier with ⟨phase, isPollStill⟩
          rw [isPoll, Option.some.injEq] at isPollStill
          subst isPollStill
          have known := induction earlier
          exact move.knows known

/-- Whatever happens is, as a poll sees it, a course of its own. -/
theorem Reaches.unfolds {world later : World} (reached : Reaches world later)
    {number : Nat} {poll : Poll} (isPoll : world.polls[number]? = some poll)
    (known : world.Knows poll.registry poll.handle) :
    ∃ phase, later.polls[number]? = some { poll with phase } ∧
      Course.Unfolds later.TakesTime poll.plan poll.policy (world.course number poll)
        (later.course number { poll with phase }) := by
  induction reached using Relation.ReflTransGen.head_induction_on generalizing poll with
  | refl => exact ⟨poll.phase, isPoll, .refl⟩
  | @head world next move rest induction =>
      have takesTime : later.TakesTime → world.TakesTime := fun takesTime =>
        move.takesTime (Reaches.takesTime rest takesTime)
      rcases move.unfolds isPoll known takesTime with ⟨phase, isPollNext, unfolds⟩
      rcases induction isPollNext (move.knows known) with ⟨phaseLater, isPollLater, unfoldsLater⟩
      exact ⟨phaseLater, isPollLater, unfolds.trans unfoldsLater⟩

end MetricWatch.Polling
