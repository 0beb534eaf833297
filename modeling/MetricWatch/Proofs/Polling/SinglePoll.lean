import MetricWatch.Proofs.Polling.Failures

namespace MetricWatch.Polling

/-! One poll under either policy, and nothing beside it. Whatever the program does in both
runs, the same befalls the poll, as long as a poll that has ended is said to have its turns
all the same. -/

namespace World

/-- The world in which a poll has just been registered, and no other one is. -/
def single (policy : FailurePolicy) (plan : Plan) : World :=
  (start [policy]).register 0 (.empty policy) plan

end World

section SinglePoll

variable {plan : Plan} {first second next : World}

def singlePoll (policy : FailurePolicy) (plan : Plan) (phase : Phase) : Poll :=
  ⟨0, ⟨0⟩, policy, plan, phase⟩

theorem reaches_single (policy : FailurePolicy) (plan : Plan) :
    Reaches (World.start [policy]) (World.single policy plan) :=
  .single (.register plan rfl)

/-- Two worlds of one poll each, in which the same has befallen the poll. -/
structure Together (plan : Plan) (first second : World) : Prop where
  incidents : ∃ incidents, Undergoes 0 (World.single .continue plan) incidents first ∧
    Undergoes 0 (World.single .stop plan) incidents second
  alone : first.polls[1]? = none ∧ second.polls[1]? = none

/-- The second poll is where the first one is, or it has ended. -/
structure Abreast (plan : Plan) (first second : World) (phase phaseToo : Phase) : Prop where
  polls : first.polls = [singlePoll .continue plan phase]
  pollsToo : second.polls = [singlePoll .stop plan phaseToo]
  now : second.now = first.now
  same : phaseToo = .ended ∨ phaseToo = phase ∧ second.isActive 0 ⟨0⟩ = first.isActive 0 ⟨0⟩

namespace Together

theorem start (plan : Plan) :
    Together plan (World.single .continue plan) (World.single .stop plan) :=
  ⟨⟨[], .start, .start⟩, rfl, rfl⟩

theorem eq_singleton {polls : List Poll} {poll : Poll} (isPoll : polls[0]? = some poll)
    (alone : polls[1]? = none) : polls = [poll] := by
  match polls, isPoll, alone with
  | [_], rfl, _ => rfl

theorem course_single (policy : FailurePolicy) (plan : Plan) :
    (World.single policy plan).course 0 (singlePoll policy plan .registered) = .registered 0 :=
  World.course_registered .refl plan rfl

theorem abreast (together : Together plan first second) :
    ∃ phase phaseToo, Abreast plan first second phase phaseToo := by
  rcases together.incidents with ⟨incidents, undergoes, undergoesToo⟩
  rcases undergoes.course (reaches_single .continue plan) rfl with ⟨phase, isPoll, course⟩
  rcases undergoesToo.course (reaches_single .stop plan) rfl with ⟨phaseToo, isPollToo, courseToo⟩
  have cut : (Course.registered 0).meetAll plan .stop incidents =
      ((Course.registered 0).meetAll plan .continue incidents).untilFailure :=
    Course.meetAll_untilFailure (Course.counts_registered 0) incidents
  have related : second.course 0 (singlePoll .stop plan phaseToo) =
      (first.course 0 (singlePoll .continue plan phase)).untilFailure := by
    refine courseToo.trans (.trans ?_ (congrArg Course.untilFailure course.symm))
    exact course_single .stop plan ▸ course_single .continue plan ▸ cut
  have now : second.now = first.now ∧ (phaseToo = .ended ∨
      phaseToo = phase ∧ second.isActive 0 ⟨0⟩ = first.isActive 0 ⟨0⟩) := by
    rcases Course.untilFailure_eq_or_ended
      (first.course 0 (singlePoll .continue plan phase)) with whole | ⟨ended, now⟩
    · have same := related.trans whole
      exact ⟨congrArg Course.now same, .inr ⟨congrArg Course.phase same,
        congrArg Course.isActive same⟩⟩
    · exact ⟨(congrArg Course.now related).trans now,
        .inl ((congrArg Course.phase related).trans ended)⟩
  exact ⟨phase, phaseToo, eq_singleton isPoll together.alone.1,
    eq_singleton isPollToo together.alone.2, now.1, now.2⟩

end Together

namespace Abreast

variable {phase phaseToo : Phase} (abreast : Abreast plan first second phase phaseToo)

include abreast

theorem isPoll : first.polls[0]? = some (singlePoll .continue plan phase) := by
  rw [abreast.polls]
  rfl

theorem isPollToo : second.polls[0]? = some (singlePoll .stop plan phaseToo) := by
  rw [abreast.pollsToo]
  rfl

theorem handle? (number : Nat) : second.handle? number = first.handle? number := by
  rw [World.handle?, World.handle?, abreast.polls, abreast.pollsToo]
  cases number <;> rfl

theorem deactivates_iff (operation : Operation) :
    second.Deactivates (singlePoll .stop plan phaseToo) operation ↔
      first.Deactivates (singlePoll .continue plan phase) operation := by
  cases operation with
  | cancel index target =>
      simp only [World.Deactivates, abreast.handle?]
      rfl
  | cancelAll index | drop index => exact Iff.rfl

theorem keepsFlag (same : phaseToo = phase) :
    second.keepsFlag (singlePoll .stop plan phaseToo) =
      first.keepsFlag (singlePoll .continue plan phase) := by
  subst same
  simp only [World.keepsFlag, abreast.deactivates_iff]
  rfl

theorem step?_eq_none_iff (same : phaseToo = phase)
    (isActive : second.isActive 0 ⟨0⟩ = first.isActive 0 ⟨0⟩) :
    second.step? 0 = none ↔ first.step? 0 = none := by
  rw [World.step?_eq_none_iff abreast.isPoll, World.step?_eq_none_iff abreast.isPollToo]
  simp only [Course.Rests, World.course, singlePoll, same, isActive, abreast.now]

theorem step?_of_ended (ended : phaseToo = .ended) : second.step? 0 = none := by
  simp only [World.step?, abreast.isPollToo, singlePoll, ended]

theorem nextDue? (same : phaseToo = phase) : second.nextDue? = first.nextDue? := by
  rw [World.nextDue?, World.nextDue?, abreast.polls, abreast.pollsToo, same]
  rfl

end Abreast

namespace Together

theorem pass (together : Together plan first second) {duration : Nat}
    (allowed : first.Allows duration) (allowedToo : second.Allows duration) :
    Together plan { first with now := first.now + duration }
      { second with now := second.now + duration } := by
  rcases together.incidents with ⟨incidents, undergoes, undergoesToo⟩
  have passes := undergoes.tail (.pass duration allowed)
  have passesToo := undergoesToo.tail (.pass duration allowedToo)
  exact ⟨⟨_, passes, passesToo⟩, together.alone⟩

theorem operate (together : Together plan first second) (operation : Operation) :
    Together plan (first.operate .program operation).1 (second.operate .program operation).1 := by
  rcases together.incidents with ⟨incidents, undergoes, undergoesToo⟩
  rcases together.abreast with ⟨phase, phaseToo, abreast⟩
  have operated := undergoes.tail (.operate first operation)
  have operatedToo := undergoesToo.tail (.operate second operation)
  have same : ((second.cancellations 0 [operation]).map fun _ => Incident.cancelled) =
      (first.cancellations 0 [operation]).map fun _ => .cancelled := by
    simp only [World.cancellations, abreast.isPoll, abreast.isPollToo, abreast.deactivates_iff,
      List.map_map]
    rfl
  refine ⟨⟨_, operated, same ▸ operatedToo⟩, ?_⟩
  rw [World.polls_operate, World.polls_operate]
  exact together.alone

/-- In its turn the first poll takes a step, and the second one too unless it has ended. -/
theorem turn (together : Together plan first second) (step : first.step? 0 = some next) :
    second.step? 0 = none ∧ Together plan next second ∨
      ∃ nextToo, second.step? 0 = some nextToo ∧ Together plan next nextToo := by
  rcases together.incidents with ⟨incidents, undergoes, undergoesToo⟩
  rcases together.abreast with ⟨phase, phaseToo, abreast⟩
  have stepped := undergoes.tail (.turn abreast.isPoll step)
  have alone := World.getElem?_eq_none_of_step step together.alone.1
  rcases abreast.same with ended | ⟨same, isActive⟩
  · have atRest := abreast.step?_of_ended ended
    exact .inl ⟨atRest, ⟨_, stepped, undergoesToo.tail (.idle _ atRest)⟩, alone,
      together.alone.2⟩
  · cases stepToo : second.step? 0 with
    | none =>
        rw [(abreast.step?_eq_none_iff same isActive).mp stepToo] at step
        cases step
    | some nextToo =>
        have steppedToo := undergoesToo.tail (.turn abreast.isPollToo stepToo)
        rw [abreast.keepsFlag same] at steppedToo
        exact .inr ⟨nextToo, rfl, ⟨_, stepped, steppedToo⟩, alone,
          World.getElem?_eq_none_of_step stepToo together.alone.2⟩

theorem step?_eq_none (together : Together plan first second) (atRest : first.step? 0 = none) :
    second.step? 0 = none := by
  rcases together.abreast with ⟨phase, phaseToo, abreast⟩
  rcases abreast.same with ended | ⟨same, isActive⟩
  · exact abreast.step?_of_ended ended
  · exact (abreast.step?_eq_none_iff same isActive).mpr atRest

theorem runPoll (together : Together plan first second) (limit : Nat) :
    Together plan (first.runPoll limit 0) (second.runPoll limit 0) := by
  induction limit generalizing first second with
  | zero => exact together
  | succ limit induction =>
      cases step : first.step? 0 with
      | none =>
          have atRest := together.step?_eq_none step
          simp only [World.runPoll, step, atRest]
          exact together
      | some next =>
          rcases together.turn step with ⟨atRest, turned⟩ | ⟨nextToo, stepToo, turned⟩
          · have rest := induction turned
            rw [World.runPoll_of_step?_eq_none atRest] at rest ⊢
            simp only [World.runPoll, step]
            exact rest
          · simp only [World.runPoll, step, stepToo]
            exact induction turned

theorem runPolls_of_singleton {world : World} {poll : Poll} (polls : world.polls = [poll]) :
    world.runPolls = world.runPoll World.stepsAtOnce 0 := by
  rw [World.runPolls, polls, List.length_singleton, List.range_one, List.foldl_cons,
    List.foldl_nil]

theorem runPolls (together : Together plan first second) :
    Together plan first.runPolls second.runPolls := by
  rcases together.abreast with ⟨phase, phaseToo, abreast⟩
  rw [runPolls_of_singleton abreast.polls, runPolls_of_singleton abreast.pollsToo]
  exact together.runPoll World.stepsAtOnce

theorem settle (together : Together plan first second) :
    Together plan first.settle second.settle :=
  together.runPolls.runPolls

end Together

/-! A poll that has ended lets all time pass. -/

section Ended

variable {world : World} {poll : Poll}

theorem nextDue?_of_ended (polls : world.polls = [poll]) (ended : poll.phase = .ended) :
    world.nextDue? = none := by
  simp [World.nextDue?, polls, ended, Phase.due?]

theorem settle_of_ended (polls : world.polls = [poll]) (ended : poll.phase = .ended) :
    world.settle = world := by
  have atRest : world.step? 0 = none := by
    simp [World.step?, polls, ended]
  have rests : world.runPolls = world := by
    rw [Together.runPolls_of_singleton polls]
    exact World.runPoll_of_step?_eq_none atRest World.stepsAtOnce
  rw [World.settle, rests, rests]

theorem advance_of_ended (polls : world.polls = [poll]) (ended : poll.phase = .ended)
    (duration : Nat) : world.advance duration = { world with now := world.now + duration } := by
  have settled := settle_of_ended polls ended
  rw [World.advance_of_none (settled.symm ▸ nextDue?_of_ended polls ended), settled]

end Ended

namespace Together

theorem advance (together : Together plan first second) (duration : Nat) :
    Together plan (first.advance duration) (second.advance duration) := by
  fun_induction World.advance first duration generalizing second with
  | case1 first duration settled =>
      rename_i isNone
      have settledToo := together.settle
      rcases settledToo.abreast with ⟨phase, phaseToo, abreast⟩
      have isNoneToo : second.settle.nextDue? = none := by
        rcases abreast.same with ended | ⟨same, _⟩
        · exact nextDue?_of_ended abreast.pollsToo ended
        · exact (abreast.nextDue? same).trans isNone
      rw [World.advance_of_none isNoneToo]
      exact settledToo.pass (World.allows_settle_of_none isNone)
        (World.allows_settle_of_none isNoneToo)
  | case2 first duration settled due isNext wait within =>
      rename_i induction
      have settledToo := together.settle
      rcases settledToo.abreast with ⟨phase, phaseToo, abreast⟩
      have notBeyond : settled.now < due → settled.now + wait ≤ due := fun _ => by omega
      have allowed := World.allows_settle_of_some isNext notBeyond
      rcases abreast.same with ended | ⟨same, _⟩
      · have isNoneToo := nextDue?_of_ended abreast.pollsToo ended
        -- The second poll has ended: there is nothing left to stop at.
        let waited : World := { second.settle with now := second.settle.now + wait }
        have polls : waited.polls = [singlePoll .stop plan phaseToo] := abreast.pollsToo
        have all : waited.now + (duration - wait) = second.settle.now + duration := by
          simp only [waited]
          omega
        have passed := induction (settledToo.pass allowed (World.allows_settle_of_none isNoneToo))
        rw [advance_of_ended polls ended, all] at passed
        rw [World.advance_of_none isNoneToo]
        exact passed
      · have isNextToo := (abreast.nextDue? same).trans isNext
        have sameWait : due - second.settle.now = wait := by rw [abreast.now]
        have allowedToo := World.allows_settle_of_some isNextToo (abreast.now ▸ notBeyond)
        rw [World.advance_of_within isNextToo (sameWait ▸ within), sameWait]
        exact induction (settledToo.pass allowed allowedToo)
  | case3 first duration settled due isNext wait =>
      rename_i beyond
      have settledToo := together.settle
      rcases settledToo.abreast with ⟨phase, phaseToo, abreast⟩
      have notBeyond : settled.now < due → settled.now + duration ≤ due := fun _ => by omega
      have allowed := World.allows_settle_of_some isNext notBeyond
      rcases abreast.same with ended | ⟨same, _⟩
      · have isNoneToo := nextDue?_of_ended abreast.pollsToo ended
        rw [World.advance_of_none isNoneToo]
        exact settledToo.pass allowed (World.allows_settle_of_none isNoneToo)
      · have isNextToo := (abreast.nextDue? same).trans isNext
        have sameWait : due - second.settle.now = wait := by rw [abreast.now]
        have allowedToo := World.allows_settle_of_some isNextToo (abreast.now ▸ notBeyond)
        rw [World.advance_of_beyond isNextToo (sameWait ▸ beyond)]
        exact settledToo.pass allowed allowedToo

theorem run (together : Together plan first second) {commands : List Command}
    (noMore : ∀ index plan canRun, .register index plan canRun ∉ commands) :
    Together plan (first.run commands) (second.run commands) := by
  induction commands generalizing first second with
  | nil => exact together
  | cons command commands induction =>
      have noMoreLater : ∀ index plan canRun, .register index plan canRun ∉ commands :=
        fun index plan canRun member => noMore index plan canRun (List.mem_cons_of_mem _ member)
      refine induction ?_ noMoreLater
      cases command with
      | register index plan canRun => exact absurd List.mem_cons_self (noMore index plan canRun)
      | operate operation => exact together.operate operation
      | advance duration => exact together.advance duration
      | settle => exact together.settle

end Together

end SinglePoll

end MetricWatch.Polling
