import MetricWatch.Proofs.Polling.Account

namespace MetricWatch.Polling

/-! Polls do not influence each other. A poll does the same in all runs that agree on its
script and on the times at which others cancel it, whatever else happens in them. -/

/-- An operation that means a poll by its own number or by its registry, whatever other
polls there are. -/
def Operation.AimsAt (index number : Nat) : Operation → Prop
  | .cancel registry poll => registry = index ∧ poll = number
  | .cancelAll registry | .drop registry => registry = index

theorem World.deactivates_of_aimsAt {world : World} {number : Nat} {poll : Poll}
    (isPoll : world.polls[number]? = some poll) {operation : Operation}
    (aims : operation.AimsAt poll.registry number) : world.Deactivates poll operation := by
  cases operation with
  | cancel index target =>
      rcases aims with ⟨rfl, rfl⟩
      exact ⟨rfl, by rw [handle?, isPoll, Option.map_some]⟩
  | cancelAll index | drop index => exact aims

theorem Moves.deactivates {world next : World} (move : Moves world next) {poll : Poll}
    {operation : Operation} (deactivates : world.Deactivates poll operation) :
    next.Deactivates poll operation := by
  cases operation with
  | cancel index target =>
      rcases deactivates with ⟨same, isTarget⟩
      rcases Option.map_eq_some_iff.mp isTarget with ⟨meant, isMeant, isHandle⟩
      rcases move.getElem? isMeant with ⟨phase, isMeantStill⟩
      exact ⟨same, by rw [World.handle?, isMeantStill, Option.map_some, ← isHandle]⟩
  | cancelAll index | drop index => exact deactivates

/-- How a run comes to register a poll. -/
structure Registration where
  policies : List FailurePolicy
  before : World
  reached : Reaches (World.start policies) before
  index : Nat
  registry : Registry
  available : before.registry? index = some registry
  plan : Plan

namespace Registration

variable (registration : Registration)

def world : World :=
  registration.before.register registration.index registration.registry registration.plan

def number : Nat := registration.before.polls.length

def poll (phase : Phase) : Poll where
  registry := registration.index
  handle := registration.registry.nextHandle
  policy := registration.registry.policy
  plan := registration.plan
  phase := phase

def script : Script where
  plan := registration.plan
  policy := registration.registry.policy
  registered := registration.before.now
  CancelsItself invocation := ∃ operation ∈ (registration.plan.call invocation).operations,
    operation.AimsAt registration.index registration.number

/-- The callbacks of the poll may cancel it, but which of their operations do so does not
depend on what other polls there are. -/
def IsSelfContained (moment : World) : Prop :=
  ∀ invocation, ∀ operation ∈ (registration.plan.call invocation).operations,
    moment.Deactivates (registration.poll .registered) operation →
      operation.AimsAt registration.index registration.number

variable {registration} {times : List Nat} {world next : World}

theorem IsSelfContained.earlier (own : registration.IsSelfContained next)
    (move : Moves world next) : registration.IsSelfContained world := by
  intro invocation operation member deactivates
  exact own invocation operation member (move.deactivates deactivates)

theorem IsSelfContained.before (own : registration.IsSelfContained next)
    (continued : Reaches world next) : registration.IsSelfContained world := by
  induction continued using Relation.ReflTransGen.head_induction_on with
  | refl => exact own
  | head move _ induction => exact induction.earlier move

theorem IsSelfContained.cancelsItself_iff (own : registration.IsSelfContained world)
    {phase : Phase} (isPoll : world.polls[registration.number]? = some (registration.poll phase))
    (invocation : Nat) : registration.script.CancelsItself invocation ↔
      ∃ operation ∈ (registration.plan.call invocation).operations,
        world.Deactivates (registration.poll phase) operation := by
  refine exists_congr fun operation => and_congr_right fun member => ?_
  constructor
  · exact World.deactivates_of_aimsAt isPoll
  · exact own invocation operation member

theorem isPunctual (continued : Reaches registration.world world) (takesTime : world.TakesTime)
    {poll : Poll} (isPoll : world.polls[registration.number]? = some poll) :
    (world.course registration.number poll).IsPunctual registration.script := by
  rcases World.onTime_of_registered registration.reached registration.available continued
    takesTime with ⟨found, isFound, _, _, _, counts, inTime, onTime⟩
  have same := isFound.symm.trans isPoll
  rw [Option.some.injEq] at same
  subst same
  exact ⟨counts, inTime, onTime⟩

/-- A poll at any later moment, and what it has done. -/
theorem accounts (continued : ReachesCancelling registration.number registration.world times world)
    (takesTime : world.TakesTime) (own : registration.IsSelfContained world) :
    ∃ phase, world.polls[registration.number]? = some (registration.poll phase) ∧
      (world.course registration.number (registration.poll phase)).Accounts
        registration.script times := by
  induction continued with
  | start =>
      refine ⟨.registered, List.getElem?_concat_length, ?_⟩
      have course := World.course_registered registration.reached registration.plan
        registration.available
      exact course.symm ▸ Course.accounts_registered registration.script
  | @tail times more world next continued move induction =>
      have takesTimeBefore := move.moves.takesTime takesTime
      have ownBefore := own.earlier move.moves
      rcases induction takesTimeBefore ownBefore with ⟨phase, isPoll, accounts⟩
      have reached : Reaches (World.start registration.policies) world :=
        (registration.reached.tail (.register _ registration.available)).trans continued.reaches
      rcases move.answers reached isPoll (ownBefore.cancelsItself_iff isPoll) with
        ⟨phaseNext, isPollNext, answers⟩
      have punctual := isPunctual continued.reaches takesTimeBefore isPoll
      exact ⟨phaseNext, isPollNext, accounts.answers punctual answers⟩

end Registration

/-- A run as far as it concerns one poll, up to a moment when the poll has nothing left to
do. Nobody cancels the poll in a millisecond in which it starts another invocation. -/
structure Life extends Registration where
  cancellations : List Nat
  moment : World
  continued : ReachesCancelling toRegistration.number toRegistration.world cancellations moment
  takesTime : moment.TakesTime
  isSelfContained : toRegistration.IsSelfContained moment
  atRest : moment.step? toRegistration.number = none
  notAtStart : ∀ time ∈ cancellations, time ∉ (moment.starts toRegistration.number).tail

namespace Life

def starts (life : Life) : List Nat := life.moment.starts life.number

def finishes (life : Life) : List Finish := life.moment.finishes life.number

def isActive (life : Life) : Bool := life.moment.isActive life.index life.registry.nextHandle

/-- All that has come of a poll follows from its script, the time, and the times at which
others have cancelled it. -/
structure IsSettledBy (life : Life) (script : Script) (times : List Nat) (now : Nat) : Prop where
  starts : ∀ invocation time, life.starts[invocation]? = some time ↔
    (script.Comes times invocation ∧ script.startTime invocation ≤ now) ∧
      time = script.startTime invocation
  finishes : ∀ invocation finish, life.finishes[invocation]? = some finish ↔
    (script.Comes times invocation ∧ script.finishTime invocation ≤ now) ∧
      finish = ⟨(script.plan.call invocation).outcome, script.finishTime invocation⟩
  isActive : life.isActive = true ↔
    times = [] ∧ ∀ invocation < life.finishes.length, script.GoesOnAfter invocation

theorem getElem?_iff_of_lt_length_iff {Content : Type} {contents : List Content}
    {content found : Content} {index : Nat} {Comes : Prop}
    (comes : index < contents.length ↔ Comes)
    (isContent : ∀ found, contents[index]? = some found → found = content) :
    contents[index]? = some found ↔ Comes ∧ found = content := by
  classical
  rw [World.getElem?_of_lt_length_iff comes isContent, Option.ite_none_right_eq_some,
    Option.some.injEq, eq_comm]

theorem isSettledBy (life : Life) :
    life.IsSettledBy life.script life.cancellations life.moment.now := by
  rcases life.accounts life.continued life.takesTime life.isSelfContained with
    ⟨phase, isPoll, accounts⟩
  have punctual := Registration.isPunctual life.continued.reaches life.takesTime isPoll
  have rests := (World.step?_eq_none_iff isPoll).mp life.atRest
  constructor
  case starts =>
    intro invocation time
    exact getElem?_iff_of_lt_length_iff
      (accounts.lt_length_starts_iff punctual rests life.notAtStart invocation)
      (punctual.onTime.starts invocation)
  case finishes =>
    intro invocation finish
    exact getElem?_iff_of_lt_length_iff
      (accounts.lt_length_finishes_iff punctual rests life.notAtStart invocation)
      (punctual.onTime.finishes invocation)
  case isActive => exact accounts.isActive

end Life

/-- Two runs that have the same in store for a poll: it is registered at the same time with
the same script, and others have cancelled it at the same times until now. -/
structure TreatAlike (first second : Life) : Prop where
  script : first.script.Alike second.script
  cancellations : ∀ time, time ∈ first.cancellations ↔ time ∈ second.cancellations
  now : first.moment.now = second.moment.now

namespace TreatAlike

variable {first second : Life} (alike : TreatAlike first second)

include alike

theorem starts_eq : first.starts = second.starts := by
  refine List.ext_getElem? fun invocation => Option.ext fun time => ?_
  rw [first.isSettledBy.starts, second.isSettledBy.starts, alike.now,
    alike.script.comes_iff alike.cancellations, alike.script.startTime]

theorem finishes_eq : first.finishes = second.finishes := by
  refine List.ext_getElem? fun invocation => Option.ext fun finish => ?_
  rw [first.isSettledBy.finishes, second.isSettledBy.finishes, alike.now,
    alike.script.comes_iff alike.cancellations, alike.script.finishTime, alike.script.outcome]

theorem isActive_eq : first.isActive = second.isActive := by
  have spared : first.cancellations = [] ↔ second.cancellations = [] := by
    simp only [List.eq_nil_iff_forall_not_mem, alike.cancellations]
  rw [Bool.eq_iff_iff, first.isSettledBy.isActive, second.isSettledBy.isActive, spared,
    alike.finishes_eq]
  simp only [alike.script.goesOnAfter_iff]

end TreatAlike

structure Agree (first second : Life) : Prop where
  starts : first.starts = second.starts
  finishes : first.finishes = second.finishes
  isActive : first.isActive = second.isActive

/-- Whatever else there is in two runs, other polls and registries and what becomes of
them, a poll does the same in both, namely what its script says. This holds at any moment
when it has nothing left to do, and there is one at every time to which commands lead. -/
theorem agree_of_treatAlike {first second : Life} (alike : TreatAlike first second) :
    (∀ commands,
      (∃ times, ReachesCancelling first.number first.moment times
        (first.moment.run commands).settle) ∧
      ((first.moment.run commands).TakesTime → (first.moment.run commands).settle.IsAtRest)) ∧
      first.IsSettledBy first.script first.cancellations first.moment.now ∧
      Agree first second := by
  refine ⟨fun commands => ⟨?_, World.isAtRest_settle⟩, first.isSettledBy, ?_⟩
  · have continued : Reaches first.moment (first.moment.run commands).settle :=
      (World.reaches_run first.moment commands).trans (World.reaches_settle _)
    exact continued.cancelling first.number
  · exact ⟨alike.starts_eq, alike.finishes_eq, alike.isActive_eq⟩

/-! A poll that is cancelled in its sleep, once alone and once among polls that fail. -/

namespace Registration

/-- The moment when the program has cancelled a poll after some commands, and the poll has
taken note of it. -/
def cancelledAfter (registration : Registration) (commands : List Command) : World :=
  ((registration.world.run commands).operate .program
    (.cancel registration.index registration.number)).1.runPoll
      World.stepsAtOnce registration.number

variable {registration : Registration} {commands : List Command}

theorem reaches_cancelledAfter :
    Reaches (registration.world.run commands) (registration.cancelledAfter commands) :=
  (World.reaches_runPoll World.stepsAtOnce _ registration.number).head (.operate _ _)

theorem reachesCancelling_cancelledAfter
    (takesTime : (registration.cancelledAfter commands).TakesTime)
    (own : registration.IsSelfContained (registration.cancelledAfter commands))
    (active : (registration.world.run commands).isActive registration.index
      registration.registry.nextHandle = true) :
    ReachesCancelling registration.number registration.world
      [(registration.world.run commands).now] (registration.cancelledAfter commands) := by
  have afterwards : Reaches (registration.world.run commands)
      (registration.cancelledAfter commands) := reaches_cancelledAfter
  rcases (World.reaches_run registration.world commands).cancelling registration.number with
    ⟨times, continued⟩
  rcases accounts continued (Reaches.takesTime afterwards takesTime) (own.before afterwards) with
    ⟨phase, isPoll, accounts⟩
  rw [(accounts.isActive.mp active).1] at continued
  have means : (registration.world.run commands).Deactivates (registration.poll phase)
      (.cancel registration.index registration.number) :=
    World.deactivates_of_aimsAt isPoll ⟨rfl, rfl⟩
  have cancels : (registration.world.run commands).cancellations registration.number
      [.cancel registration.index registration.number] =
        [(registration.world.run commands).now] := by
    simp only [World.cancellations, isPoll, List.filter_cons, means, decide_true, if_true,
      List.filter_nil, List.map_cons, List.map_nil]
  have cancelled := continued.tail
    (.operate _ (.cancel registration.index registration.number))
  rw [cancels] at cancelled
  exact cancelled.runPoll World.stepsAtOnce

/-- The life of a poll that is active until then. -/
def cancelled (registration : Registration) (commands : List Command)
    (takesTime : (registration.cancelledAfter commands).TakesTime)
    (own : registration.IsSelfContained (registration.cancelledAfter commands))
    (active : (registration.world.run commands).isActive registration.index
      registration.registry.nextHandle = true)
    (notAtStart : (registration.world.run commands).now ∉
      ((registration.cancelledAfter commands).starts registration.number).tail) : Life where
  toRegistration := registration
  cancellations := [(registration.world.run commands).now]
  moment := registration.cancelledAfter commands
  continued := reachesCancelling_cancelledAfter takesTime own active
  takesTime := takesTime
  isSelfContained := own
  atRest := World.step?_runPoll_stepsAtOnce
    (Reaches.takesTime (World.reaches_runPoll _ _ _) takesTime) registration.number
  notAtStart := by
    intro time member
    rw [List.mem_singleton.mp member]
    exact notAtStart

end Registration

def everyHundred : Plan := ⟨100, fun _ => ⟨50, [], .succeeded⟩⟩

def panicking : Plan := ⟨30, fun _ => ⟨20, [], .panicked⟩⟩

def failing : Plan := ⟨70, fun _ => ⟨10, [.cancel 1 0], .failed "busy"⟩⟩

def alone : Registration where
  policies := [.continue]
  before := World.start [.continue]
  reached := .refl
  index := 0
  registry := .empty .continue
  available := rfl
  plan := everyHundred

/-- The same poll, with another number and another handle in another registry. -/
def amongOthers : Registration where
  policies := [.stop, .continue]
  before := (World.start [.stop, .continue]).run
    [.register 1 panicking true, .register 0 failing true]
  reached := World.reaches_run _ _
  index := 1
  registry := ⟨.continue, [true], false⟩
  available := rfl
  plan := everyHundred

theorem takesTime_alone : (alone.cancelledAfter [.advance 220]).TakesTime := by
  have polls : (alone.cancelledAfter [.advance 220]).polls = [alone.poll .ended] := by
    simp only [Registration.cancelledAfter, Registration.world, Registration.poll, alone]
    cbv
  intro poll member invocation
  rw [polls, List.mem_singleton] at member
  rw [member]
  exact Nat.succ_pos 149

theorem takesTime_amongOthers : (amongOthers.cancelledAfter [.advance 220]).TakesTime := by
  have polls : (amongOthers.cancelledAfter [.advance 220]).polls =
      [⟨1, ⟨0⟩, .continue, panicking, .ended⟩, ⟨0, ⟨0⟩, .stop, failing, .ended⟩,
        amongOthers.poll .ended] := by
    simp only [Registration.cancelledAfter, Registration.world, Registration.poll, amongOthers]
    cbv
  intro poll member invocation
  simp only [polls, List.mem_cons, List.not_mem_nil, or_false] at member
  rcases member with rfl | rfl | rfl
  · exact Nat.succ_pos 49
  · exact Nat.succ_pos 79
  · exact Nat.succ_pos 149

theorem now_alone : (alone.world.run [.advance 220]).now = 220 := by
  simp only [Registration.world, alone]
  cbv

theorem now_amongOthers : (amongOthers.world.run [.advance 220]).now = 220 := by
  simp only [Registration.world, amongOthers]
  cbv

theorem isActive_alone : (alone.world.run [.advance 220]).isActive 0 ⟨0⟩ = true := by
  simp only [Registration.world, alone]
  cbv

theorem isActive_amongOthers :
    (amongOthers.world.run [.advance 220]).isActive 1 ⟨1⟩ = true := by
  simp only [Registration.world, amongOthers]
  cbv

theorem notAtStart_alone : (alone.world.run [.advance 220]).now ∉
    ((alone.cancelledAfter [.advance 220]).starts 0).tail := by
  have starts : (alone.cancelledAfter [.advance 220]).starts 0 = [0, 150] := by
    simp only [Registration.cancelledAfter, Registration.world, alone]
    cbv
  rw [starts, now_alone]
  decide

theorem notAtStart_amongOthers : (amongOthers.world.run [.advance 220]).now ∉
    ((amongOthers.cancelledAfter [.advance 220]).starts 2).tail := by
  have starts : (amongOthers.cancelledAfter [.advance 220]).starts 2 = [0, 150] := by
    simp only [Registration.cancelledAfter, Registration.world, amongOthers]
    cbv
  rw [starts, now_amongOthers]
  decide

def cancelledAlone : Life :=
  alone.cancelled [.advance 220] takesTime_alone
    (fun _ _ member => absurd member List.not_mem_nil) isActive_alone notAtStart_alone

def cancelledAmongOthers : Life :=
  amongOthers.cancelled [.advance 220] takesTime_amongOthers
    (fun _ _ member => absurd member List.not_mem_nil) isActive_amongOthers notAtStart_amongOthers

/-- One poll panics beside the second, and another fails and stops. -/
theorem agree_of_cancelled :
    TreatAlike cancelledAlone cancelledAmongOthers ∧
      cancelledAlone.IsSettledBy cancelledAlone.script cancelledAlone.cancellations
        cancelledAlone.moment.now ∧
      Agree cancelledAlone cancelledAmongOthers := by
  have script : cancelledAlone.script.Alike cancelledAmongOthers.script := by
    constructor
    case interval | policy | registered => rfl
    case duration | outcome => exact fun _ => rfl
    case cancelsItself =>
      intro invocation
      constructor
      · rintro ⟨operation, member, _⟩
        exact absurd member List.not_mem_nil
      · rintro ⟨operation, member, _⟩
        exact absurd member List.not_mem_nil
  have cancellations : cancelledAlone.cancellations = cancelledAmongOthers.cancellations := by
    change [(alone.world.run [.advance 220]).now] = [(amongOthers.world.run [.advance 220]).now]
    rw [now_alone, now_amongOthers]
  have now : cancelledAlone.moment.now = cancelledAmongOthers.moment.now := by
    change (alone.cancelledAfter [.advance 220]).now =
      (amongOthers.cancelledAfter [.advance 220]).now
    simp only [Registration.cancelledAfter, Registration.world, alone, amongOthers]
    cbv
  have alike : TreatAlike cancelledAlone cancelledAmongOthers :=
    ⟨script, fun time => by rw [cancellations], now⟩
  exact ⟨alike, (agree_of_treatAlike alike).2⟩

end MetricWatch.Polling
