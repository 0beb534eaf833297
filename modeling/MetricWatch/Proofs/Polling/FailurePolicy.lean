import MetricWatch.Proofs.Polling.Independence
import MetricWatch.Proofs.Polling.Lockstep
import MetricWatch.Proofs.Polling.SinglePoll

namespace MetricWatch.Polling

/-! What the failure policy changes. Polls that continue do the same as if their failing
invocations had succeeded, and a poll that stops does the same up to the end of the first
of them. -/

theorem Plan.like_mended (plan : Plan) : Plan.Like .continue plan plan.mended where
  interval := rfl
  duration _ := rfl
  operations _ := rfl
  goesOn invocation := Outcome.goesOn_mended (plan.call invocation).outcome

/-- The same command, but for a poll whose invocations no longer fail, where it continues. -/
inductive Command.Mends (policies : List FailurePolicy) : Command → Command → Prop
  | same (command : Command) : Mends policies command command
  | register {index : Nat} (plan : Plan) (canRun : Bool) :
      policies[index]? = some .continue →
      Mends policies (.register index plan canRun) (.register index plan.mended canRun)

theorem Command.Mends.like {policies : List FailurePolicy} {command mended : Command}
    (mends : Mends policies command mended) :
    Command.Like (fun _ => True) policies command mended := by
  cases mends with
  | register plan canRun continues =>
      refine .register canRun trivial fun policy isPolicy => ?_
      cases continues.symm.trans isPolicy
      exact plan.like_mended
  | same =>
      cases command with
      | register index plan canRun =>
          exact .register canRun trivial fun policy _ => .refl policy plan
      | operate operation => exact .operate operation
      | advance duration => exact .advance duration
      | settle => exact .settle

/-- All polls start and end their invocations at the same times, and the same are active. -/
structure SameTimes (first second : World) : Prop where
  starts : ∀ number, second.starts number = first.starts number
  finishTimes : ∀ number,
    (second.finishes number).map Finish.time = (first.finishes number).map Finish.time
  isActive : ∀ index handle, second.isActive index handle = first.isActive index handle

theorem sameTimes_of_mends {policies : List FailurePolicy} {commands mended : List Command}
    (mends : List.Forall₂ (Command.Mends policies) commands mended) :
    SameTimes ((World.start policies).run commands) ((World.start policies).run mended) := by
  have like := mends.imp fun _ _ mends => mends.like
  have inStep := (World.InStep.refl (.start policies)).run .refl like
  exact ⟨inStep.starts, inStep.finishTimes, inStep.isActive⟩

/-- A run as far as it concerns one poll, with all that befalls the poll in it. -/
structure Career extends Registration where
  incidents : List Incident
  moment : World
  undergone : Undergoes toRegistration.number toRegistration.world incidents moment

namespace Career

variable (career : Career)

def starts : List Nat := career.moment.starts career.number

def finishes : List Finish := career.moment.finishes career.number

def isActive : Bool := career.moment.isActive career.index career.registry.nextHandle

/-- What becomes of the poll by what befalls it. -/
def course : Course :=
  (Course.registered career.before.now).meetAll career.plan career.registry.policy
    career.incidents

theorem reached_world : Reaches (World.start career.policies) career.world :=
  career.reached.tail (.register career.plan career.available)

theorem exists_poll : ∃ phase, career.moment.polls[career.number]? = some (career.poll phase) ∧
    career.moment.course career.number (career.poll phase) = career.course := by
  have isPoll : career.world.polls[career.number]? = some (career.poll .registered) :=
    List.getElem?_concat_length
  rcases career.undergone.course career.reached_world isPoll with ⟨phase, isPollNow, course⟩
  refine ⟨phase, isPollNow, course.trans ?_⟩
  exact congrArg (fun course : Course => course.meetAll career.plan career.registry.policy
    career.incidents) (World.course_registered career.reached career.plan career.available)

theorem starts_eq : career.starts = career.course.starts := by
  rcases career.exists_poll with ⟨_, _, course⟩
  exact congrArg Course.starts course

theorem finishes_eq : career.finishes = career.course.finishes := by
  rcases career.exists_poll with ⟨_, _, course⟩
  exact congrArg Course.finishes course

theorem isActive_eq : career.isActive = career.course.isActive := by
  rcases career.exists_poll with ⟨_, _, course⟩
  exact congrArg Course.isActive course

end Career

/-- The same befalls the same poll, but in one run it continues when it fails, and in the
other it stops. -/
structure OnlyPolicyDiffers (continuing stopping : Career) : Prop where
  continues : continuing.registry.policy = .continue
  stops : stopping.registry.policy = .stop
  plan : stopping.plan = continuing.plan
  registered : stopping.before.now = continuing.before.now
  incidents : stopping.incidents = continuing.incidents

theorem OnlyPolicyDiffers.course {continuing stopping : Career}
    (differs : OnlyPolicyDiffers continuing stopping) :
    stopping.course = continuing.course.untilFailure := by
  simp only [Career.course, differs.continues, differs.stops, differs.plan, differs.registered,
    differs.incidents]
  exact Course.meetAll_untilFailure (Course.counts_registered _) continuing.incidents

/-- The run of a poll that stops ends with its first failure, and is whole without one. -/
structure StopsAtFailure (continuing stopping : Career) : Prop where
  whole : continuing.finishes.findIdx? Finish.isFailure = none →
    stopping.starts = continuing.starts ∧ stopping.finishes = continuing.finishes ∧
      stopping.isActive = continuing.isActive
  cut : ∀ {failure}, continuing.finishes.findIdx? Finish.isFailure = some failure →
    stopping.starts = continuing.starts.take (failure + 1) ∧
      stopping.finishes = continuing.finishes.take (failure + 1) ∧ stopping.isActive = false
  refuses : continuing.finishes.findIdx? Finish.isFailure ≠ none →
    ∀ {later registry} (source : Source), Reaches stopping.moment later →
      later.registry? stopping.index = some registry →
        (later.operate source (.cancel stopping.index stopping.number)).2 = .cancelled false

/-- An invocation that ends after its poll has been cancelled is the last one. -/
def EndsOnceCancelled (career : Career) : Prop :=
  ∀ {world next later : World} {invocation finish : Nat}, Reaches career.world world →
    world.phase? career.number = some (.running invocation finish) →
    world.isActiveAfter career.number (career.plan.call invocation).operations
      career.index career.registry.nextHandle = false →
    world.step? career.number = some next → Reaches next later →
      later.phase? career.number = some .ended ∧
        later.isActive career.index career.registry.nextHandle = false ∧
        later.starts career.number = world.starts career.number ∧
        later.finishes career.number = world.finishes career.number ++
          [⟨(career.plan.call invocation).outcome, world.now⟩]

namespace Career

theorem course_of_last {career : Career} {world next : World} {invocation finish : Nat}
    (isPoll : world.polls[career.number]? = some (career.poll (.running invocation finish)))
    (inactive : world.isActiveAfter career.number (career.plan.call invocation).operations
      career.index career.registry.nextHandle = false)
    (step : world.step? career.number = some next) :
    next.polls[career.number]? = some (career.poll .ended) ∧
      next.course career.number (career.poll .ended) =
        { world.course career.number (career.poll (.running invocation finish)) with
          isActive := false
          phase := .ended
          finishes := world.finishes career.number ++
            [⟨(career.plan.call invocation).outcome, world.now⟩] } := by
  rcases World.course_of_step isPoll step with ⟨phase, isPollNext, stepped⟩
  have last := Course.eq_of_last rfl inactive stepped
  have ended : phase = .ended := congrArg Course.phase last
  subst ended
  exact ⟨isPollNext, last⟩

theorem endsOnceCancelled (career : Career) : EndsOnceCancelled career := by
  intro world next later invocation finish continued running inactive step rest
  have reached := career.reached_world.trans continued
  have isPollThere : career.world.polls[career.number]? = some (career.poll .registered) :=
    List.getElem?_concat_length
  rcases continued.unfolds isPollThere (Reaches.knows career.reached_world isPollThere) with
    ⟨phase, isPoll, _⟩
  simp only [World.phase?, isPoll, Option.map_some, Option.some.injEq] at running
  subst running
  rcases course_of_last isPoll inactive step with ⟨isPollNext, course⟩
  have reachedNext := reached.tail (.step career.number step)
  rcases rest.unfolds isPollNext (Reaches.knows reachedNext isPollNext) with
    ⟨phase, isPollLater, unfolds⟩
  have ended := Course.ended_of_unfolds rfl unfolds
  have inactiveNext := congrArg Course.isActive course
  have noMore := World.startsNoMore reachedNext rest isPollNext inactiveNext
  refine ⟨?_, noMore.1, ended.2.1.trans (congrArg Course.starts course),
    ended.2.2.trans (congrArg Course.finishes course)⟩
  rw [World.phase?, isPollLater, Option.map_some]
  exact congrArg some ended.1

end Career

namespace OnlyPolicyDiffers

variable {continuing stopping : Career} (differs : OnlyPolicyDiffers continuing stopping)

include differs

theorem isActive_of_failure (fails : continuing.finishes.findIdx? Finish.isFailure ≠ none) :
    stopping.isActive = false := by
  rcases Option.ne_none_iff_exists'.mp fails with ⟨failure, cut⟩
  rw [continuing.finishes_eq] at cut
  rw [stopping.isActive_eq, differs.course, Course.untilFailure_of_some cut]
  rfl

theorem refuses (fails : continuing.finishes.findIdx? Finish.isFailure ≠ none) {later : World}
    {registry : Registry} (source : Source) (continued : Reaches stopping.moment later)
    (available : later.registry? stopping.index = some registry) :
    (later.operate source (.cancel stopping.index stopping.number)).2 = .cancelled false := by
  have inactive := differs.isActive_of_failure fails
  have reached := stopping.reached_world.trans stopping.undergone.reaches
  rcases stopping.exists_poll with ⟨phase, isPoll, _⟩
  rcases continued.unfolds isPoll (Reaches.knows reached isPoll) with ⟨phase, isPollLater, _⟩
  have noMore := World.startsNoMore reached continued isPoll inactive
  have target : later.handle? stopping.number = some stopping.registry.nextHandle := by
    rw [World.handle?, isPollLater]
    rfl
  rw [(World.cancels_operate source available target).reply]
  exact congrArg Reply.cancelled noMore.1

theorem stopsAtFailure : StopsAtFailure continuing stopping := by
  have course := differs.course
  constructor
  case whole =>
    intro whole
    rw [continuing.finishes_eq] at whole
    rw [Course.untilFailure_of_none whole] at course
    simp only [Career.starts_eq, Career.finishes_eq, Career.isActive_eq, course, and_self]
  case cut =>
    intro failure cut
    rw [continuing.finishes_eq] at cut
    rw [Course.untilFailure_of_some cut] at course
    simp only [Career.starts_eq, Career.finishes_eq, Career.isActive_eq, course, Course.cutOff,
      and_self]
  case refuses => exact fun fails _ _ source => differs.refuses fails source

end OnlyPolicyDiffers

/-- A run with one poll and nothing beside it. -/
def Career.alone {policy : FailurePolicy} {plan : Plan} {incidents : List Incident}
    {moment : World} (undergone : Undergoes 0 (World.single policy plan) incidents moment) :
    Career where
  policies := [policy]
  before := World.start [policy]
  reached := .refl
  index := 0
  registry := .empty policy
  available := rfl
  plan := plan
  incidents := incidents
  moment := moment
  undergone := undergone

/-- When the program does the same with a poll alone under either policy, the same befalls
the poll. -/
theorem exists_onlyPolicyDiffers (plan : Plan) {commands : List Command}
    (noMore : ∀ index plan canRun, .register index plan canRun ∉ commands) :
    ∃ continuing stopping : Career, OnlyPolicyDiffers continuing stopping ∧
      continuing.moment =
        (World.start [.continue]).run (.register 0 plan true :: commands) ∧
      stopping.moment = (World.start [.stop]).run (.register 0 plan true :: commands) := by
  rcases ((Together.start plan).run noMore).incidents with ⟨incidents, undergoes, undergoesToo⟩
  exact ⟨.alone undergoes, .alone undergoesToo, ⟨rfl, rfl, rfl, rfl, rfl⟩, rfl, rfl⟩

/-- Failures make no difference to a poll that continues, and the first one is the end of a
poll that stops, unless it has been cancelled before, which ends it in any case. -/
theorem stopsAtFailure_of_onlyPolicyDiffers {continuing stopping : Career}
    (differs : OnlyPolicyDiffers continuing stopping) :
    (∀ {policies commands mended}, List.Forall₂ (Command.Mends policies) commands mended →
      SameTimes ((World.start policies).run commands) ((World.start policies).run mended)) ∧
    (∀ plan {commands}, (∀ index plan canRun, .register index plan canRun ∉ commands) →
      ∃ continuing stopping : Career, OnlyPolicyDiffers continuing stopping ∧
        continuing.moment =
          (World.start [.continue]).run (.register 0 plan true :: commands) ∧
        stopping.moment = (World.start [.stop]).run (.register 0 plan true :: commands)) ∧
    StopsAtFailure continuing stopping ∧ EndsOnceCancelled continuing ∧
      EndsOnceCancelled stopping :=
  ⟨sameTimes_of_mends, exists_onlyPolicyDiffers, differs.stopsAtFailure,
    continuing.endsOnceCancelled, stopping.endsOnceCancelled⟩

/-- A poll that fails the second time. -/
theorem stopsAtFailure_second :
    let plan : Plan := ⟨100, fun invocation =>
      ⟨50, [], if invocation = 1 then .failed (some "busy") else .succeeded⟩⟩
    ∃ continuing stopping : Career, OnlyPolicyDiffers continuing stopping ∧
      continuing.moment =
        (World.start [.continue]).run [.register 0 plan true, .advance 400] ∧
      continuing.starts = [0, 150, 300] ∧ stopping.starts = [0, 150] ∧
      StopsAtFailure continuing stopping := by
  intro plan
  have noMore : ∀ index plan canRun, .register index plan canRun ∉ [Command.advance 400] := by
    intro index plan canRun member
    cases List.mem_singleton.mp member
  rcases ((Together.start plan).run noMore).incidents with ⟨incidents, undergoes, undergoesToo⟩
  have differs : OnlyPolicyDiffers (.alone undergoes) (.alone undergoesToo) :=
    ⟨rfl, rfl, rfl, rfl, rfl⟩
  have starts : ((World.single .continue plan).run [.advance 400]).starts 0 = [0, 150, 300] := by
    simp only [plan]
    cbv
  have startsToo : ((World.single .stop plan).run [.advance 400]).starts 0 = [0, 150] := by
    simp only [plan]
    cbv
  exact ⟨_, _, differs, rfl, starts, startsToo, (stopsAtFailure_of_onlyPolicyDiffers differs).2.2.1⟩

end MetricWatch.Polling
