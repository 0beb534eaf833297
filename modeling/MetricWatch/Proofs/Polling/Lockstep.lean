import Mathlib.Data.List.Forall2
import MetricWatch.Proofs.Polling.Flag
import MetricWatch.Proofs.Polling.HandleTable

namespace MetricWatch.Polling

/-! Worlds in lockstep. What polls do, and when, follows from their timing, from what their
callbacks ask of registries, and from the activity of handles; so worlds that agree on these
stay in step, whatever else is different about them. -/

/-- With this policy two plans make no difference but in what is reported. -/
structure Plan.Like (policy : FailurePolicy) (plan other : Plan) : Prop where
  interval : other.interval = plan.interval
  duration : ∀ invocation, (other.call invocation).duration = (plan.call invocation).duration
  operations : ∀ invocation,
    (other.call invocation).operations = (plan.call invocation).operations
  goesOn : ∀ invocation, Course.goesOn (policy.consequence (other.call invocation).outcome) =
    Course.goesOn (policy.consequence (plan.call invocation).outcome)

theorem Plan.Like.refl (policy : FailurePolicy) (plan : Plan) : Plan.Like policy plan plan :=
  ⟨rfl, fun _ => rfl, fun _ => rfl, fun _ => rfl⟩

structure Poll.Like (poll other : Poll) : Prop where
  registry : other.registry = poll.registry
  handle : other.handle = poll.handle
  policy : other.policy = poll.policy
  phase : other.phase = poll.phase
  plan : Plan.Like poll.policy poll.plan other.plan

theorem Poll.Like.refl (poll : Poll) : Poll.Like poll poll :=
  ⟨rfl, rfl, rfl, rfl, .refl poll.policy poll.plan⟩

/-! The policy with which a registry takes polls, as long as it has not been dropped. -/

def Registry.offer? (registry : Registry) : Option FailurePolicy :=
  if registry.isDropped then none else some registry.policy

namespace World

def offer? (world : World) (index : Nat) : Option FailurePolicy :=
  world.registries[index]?.bind Registry.offer?

theorem offer?_start (policies : List FailurePolicy) (index : Nat) :
    (start policies).offer? index = policies[index]? := by
  simp only [offer?, start, List.getElem?_map]
  cases policies[index]? <;> rfl

theorem offer?_of_registries_eq {world next : World} (equal : next.registries = world.registries)
    (index : Nat) : next.offer? index = world.offer? index := by
  rw [offer?, equal, offer?]

theorem offer?_eq_map (world : World) (index : Nat) :
    world.offer? index = (world.registry? index).map Registry.policy := by
  unfold offer? registry?
  cases world.registries[index]? with
  | none => rfl
  | some registry =>
      simp only [Option.bind_some, Registry.offer?]
      split <;> rfl

theorem offer?_setRegistry {world : World} {index : Nat} {registry changed : Registry}
    (present : world.registries[index]? = some registry) (place : Nat) :
    (world.setRegistry index changed).offer? place =
      if index = place then changed.offer? else world.offer? place := by
  unfold offer?
  rw [registries_setRegistry present]
  split <;> rfl

theorem offer?_setRegistry_of_eq {world : World} {index : Nat} {registry : Registry}
    (present : world.registries[index]? = some registry) (changed : Registry)
    (offer : changed.offer? = registry.offer?) (place : Nat) :
    (world.setRegistry index changed).offer? place = world.offer? place := by
  rw [offer?_setRegistry present]
  split
  · rename_i same
    rw [offer, ← same, World.offer?, present, Option.bind_some]
  · rfl

theorem offer?_operate (world : World) (source : Source) (operation : Operation) (place : Nat) :
    (world.operate source operation).1.offer? place =
      if operation = .drop place then none else world.offer? place := by
  cases operation with
  | cancel index target =>
      rw [if_neg (by simp)]
      cases available : world.registry? index with
      | none => simp only [operate, available]
      | some registry =>
          have present := getElem?_of_available available
          cases isTarget : world.handle? target with
          | none => simp only [operate, available, isTarget]
          | some handle =>
              simp only [operate, available, isTarget, cancel]
              split
              · exact offer?_setRegistry_of_eq present (registry.deactivate handle) rfl place
              · rfl
  | cancelAll index =>
      rw [if_neg (by simp)]
      cases available : world.registry? index with
      | none => simp only [operate, available]
      | some registry =>
          simp only [operate, available]
          exact offer?_setRegistry_of_eq (getElem?_of_available available) registry.cancelAll
            rfl place
  | drop index =>
      cases available : world.registry? index with
      | none =>
          simp only [operate, available, Operation.drop.injEq]
          split
          · rename_i same
            subst same
            rw [offer?_eq_map, available, Option.map_none]
          · rfl
      | some registry =>
          simp only [operate, available, Operation.drop.injEq]
          rw [offer?_setRegistry (getElem?_of_available available)]
          rfl

theorem offer?_deactivate (world : World) (index : Nat) (handle : Handle) (place : Nat) :
    (world.deactivate index handle).offer? place = world.offer? place := by
  simp only [offer?, deactivate, List.getElem?_modify]
  cases world.registries[place]? with
  | none => rfl
  | some registry =>
      simp only [Option.map_eq_map, Option.map_some, Option.bind_some]
      split <;> rfl

theorem offer?_register {world : World} {index : Nat} {registry : Registry} (plan : Plan)
    (present : world.registries[index]? = some registry) (place : Nat) :
    (world.register index registry plan).offer? place = world.offer? place :=
  offer?_setRegistry_of_eq present registry.register rfl place

/-- Two worlds in which the same polls are at the same in the same registries. Of some
registries it is not asked whether they can still take polls. -/
structure InStep (IsOpen : Nat → Prop) (first second : World) : Prop where
  now : second.now = first.now
  polls : ∀ number : Nat, Option.Rel Poll.Like first.polls[number]? second.polls[number]?
  starts : ∀ number, second.starts number = first.starts number
  finishTimes : ∀ number,
    (second.finishes number).map Finish.time = (first.finishes number).map Finish.time
  isActive : ∀ index handle, second.isActive index handle = first.isActive index handle
  size? : ∀ index, second.size? index = first.size? index
  offer? : ∀ index, IsOpen index → second.offer? index = first.offer? index
  isTidy : first.IsTidy ∧ second.IsTidy

theorem InStep.refl {IsOpen : Nat → Prop} {world : World} (tidy : world.IsTidy) :
    InStep IsOpen world world where
  now := rfl
  polls number := by
    cases world.polls[number]? with
    | none => exact .none
    | some poll => exact .some (.refl poll)
  starts _ := rfl
  finishTimes _ := rfl
  isActive _ _ := rfl
  size? _ := rfl
  offer? _ _ := rfl
  isTidy := ⟨tidy, tidy⟩

namespace InStep

variable {IsOpen : Nat → Prop} {first second firstNext secondNext : World}
  (inStep : InStep IsOpen first second)

include inStep

theorem handle? (number : Nat) : second.handle? number = first.handle? number := by
  have like := inStep.polls number
  rw [World.handle?, World.handle?]
  generalize first.polls[number]? = poll, second.polls[number]? = other at like ⊢
  cases like with
  | none => rfl
  | some like => exact congrArg some like.handle

theorem deactivates_iff {poll : Poll} (operation : Operation) :
    second.Deactivates poll operation ↔ first.Deactivates poll operation := by
  cases operation with
  | cancel index target => rw [Deactivates, Deactivates, inStep.handle?]
  | cancelAll index | drop index => exact Iff.rfl

/-- What changes nothing but activity keeps two worlds in step if it changes it alike. -/
theorem of_spares (firstSpared : ∀ number, Spares number first firstNext)
    (secondSpared : ∀ number, Spares number second secondNext)
    (isActive : ∀ index handle,
      secondNext.isActive index handle = firstNext.isActive index handle)
    (offer? : ∀ index, IsOpen index → secondNext.offer? index = firstNext.offer? index)
    (isTidy : firstNext.IsTidy ∧ secondNext.IsTidy) : InStep IsOpen firstNext secondNext where
  now := by rw [(firstSpared 0).now, (secondSpared 0).now, inStep.now]
  polls number := by
    rw [(firstSpared number).poll, (secondSpared number).poll]
    exact inStep.polls number
  starts number := by
    rw [(firstSpared number).starts, (secondSpared number).starts, inStep.starts]
  finishTimes number := by
    rw [(firstSpared number).finishes, (secondSpared number).finishes, inStep.finishTimes]
  isActive := isActive
  size? index := by
    rw [(firstSpared 0).fades.size?, (secondSpared 0).fades.size?, inStep.size?]
  offer? := offer?
  isTidy := isTidy

theorem noticeFirst (source : Source) (notice : Notice) :
    InStep IsOpen (first.write source (.noticed notice)) second :=
  inStep.of_spares (fun number => .notice number first source notice)
    (fun number => .refl number second) inStep.isActive inStep.offer?
    ⟨inStep.isTidy.1.of_registries_eq rfl, inStep.isTidy.2⟩

theorem noticeSecond (source : Source) (notice : Notice) :
    InStep IsOpen first (second.write source (.noticed notice)) :=
  inStep.of_spares (fun number => .refl number first)
    (fun number => .notice number second source notice) inStep.isActive inStep.offer?
    ⟨inStep.isTidy.1, inStep.isTidy.2.of_registries_eq rfl⟩

theorem deactivate (index : Nat) (handle : Handle) :
    InStep IsOpen (first.deactivate index handle) (second.deactivate index handle) := by
  refine inStep.of_spares (fun number => .deactivate number first index handle)
    (fun number => .deactivate number second index handle) ?_ ?_
    ⟨inStep.isTidy.1.deactivate index handle, inStep.isTidy.2.deactivate index handle⟩
  · intro place other
    rw [isActive_deactivate, isActive_deactivate, inStep.isActive]
  · intro place isOpen
    rw [offer?_deactivate, offer?_deactivate, inStep.offer? place isOpen]

theorem isActive_operate (source other : Source) (operation : Operation) (index : Nat)
    (handle : Handle) :
    (second.operate other operation).1.isActive index handle =
      (first.operate source operation).1.isActive index handle := by
  let poll : Poll := ⟨index, handle, .continue, ⟨0, fun _ => ⟨0, [], .succeeded⟩⟩, .ended⟩
  have firstIff := @isActive_operate_iff first poll inStep.isTidy.1 source operation
  have secondIff := @isActive_operate_iff second poll inStep.isTidy.2 other operation
  rw [inStep.isActive, inStep.deactivates_iff] at secondIff
  exact Bool.eq_iff_iff.mpr (secondIff.trans firstIff.symm)

theorem operate (source other : Source) (operation : Operation) :
    InStep IsOpen (first.operate source operation).1 (second.operate other operation).1 := by
  refine inStep.of_spares (fun number => .operate number first source operation)
    (fun number => .operate number second other operation)
    (inStep.isActive_operate source other operation) ?_
    ⟨inStep.isTidy.1.operate source operation, inStep.isTidy.2.operate other operation⟩
  intro index isOpen
  rw [offer?_operate, offer?_operate, inStep.offer? index isOpen]

theorem operateInside (number : Nat) (operation : Operation) :
    InStep IsOpen (first.operateInside number operation)
      (second.operateInside number operation) := by
  have operated := inStep.operate (.poll number) (.poll number) operation
  exact operated.of_spares (fun _ => .write _ _ rfl rfl) (fun _ => .write _ _ rfl rfl)
    operated.isActive operated.offer?
    ⟨operated.isTidy.1.of_registries_eq rfl, operated.isTidy.2.of_registries_eq rfl⟩

end InStep

theorem InStep.operations {IsOpen : Nat → Prop} {first second : World}
    (inStep : InStep IsOpen first second) (number : Nat) (operations : List Operation) :
    InStep IsOpen (operations.foldl (World.operateInside number) first)
      (operations.foldl (World.operateInside number) second) := by
  induction operations generalizing first second with
  | nil => exact inStep
  | cons operation operations induction => exact induction (inStep.operateInside number operation)

section Steps

variable {IsOpen : Nat → Prop} {first second : World} {poll other : Poll} {number : Nat}

theorem InStep.setPhase (inStep : InStep IsOpen first second) (number : Nat) (phase : Phase) :
    InStep IsOpen (first.setPhase number phase) (second.setPhase number phase) where
  now := inStep.now
  polls place := by
    have like := inStep.polls place
    simp only [World.setPhase, List.getElem?_modify]
    generalize first.polls[place]? = poll, second.polls[place]? = other at like ⊢
    cases like with
    | none => exact .none
    | some like =>
        refine .some ?_
        split
        · exact ⟨like.registry, like.handle, like.policy, rfl, like.plan⟩
        · exact like
  starts := inStep.starts
  finishTimes := inStep.finishTimes
  isActive := inStep.isActive
  size? := inStep.size?
  offer? := inStep.offer?
  isTidy := ⟨inStep.isTidy.1.of_registries_eq rfl, inStep.isTidy.2.of_registries_eq rfl⟩

/-- Entries of both journals that tell the same times. -/
theorem InStep.write (inStep : InStep IsOpen first second) (source : Source)
    {event same : Event}
    (starts : ∀ number, Entry.start? number ⟨source, same⟩ = Entry.start? number ⟨source, event⟩)
    (finishes : ∀ number, (Entry.finish? number ⟨source, same⟩).map Finish.time =
      (Entry.finish? number ⟨source, event⟩).map Finish.time) :
    InStep IsOpen (first.write source event) (second.write source same) where
  now := inStep.now
  polls := inStep.polls
  starts number := by rw [starts_write, starts_write, inStep.starts, starts]
  finishTimes number := by
    rw [finishes_write, finishes_write, List.map_append, List.map_append, inStep.finishTimes,
      ← Option.toList_map, ← Option.toList_map, finishes]
  isActive := inStep.isActive
  size? := inStep.size?
  offer? := inStep.offer?
  isTidy := ⟨inStep.isTidy.1.of_registries_eq rfl, inStep.isTidy.2.of_registries_eq rfl⟩

theorem InStep.stop (inStep : InStep IsOpen first second) (like : Poll.Like poll other)
    (number : Nat) : InStep IsOpen (first.stop number poll) (second.stop number other) := by
  have stopped := inStep.setPhase number .ended
  rw [World.stop, World.stop, like.handle]
  exact stopped.write _ (fun _ => rfl) (fun _ => rfl)

theorem InStep.begin (inStep : InStep IsOpen first second) (like : Poll.Like poll other)
    (number invocation : Nat) :
    InStep IsOpen (first.begin number poll invocation) (second.begin number other invocation) := by
  rw [World.begin, World.begin, inStep.now, like.plan.duration]
  exact (inStep.setPhase number _).write _ (fun _ => rfl) (fun _ => rfl)

theorem InStep.rest (inStep : InStep IsOpen first second) (like : Poll.Like poll other)
    (number invocation : Nat) :
    InStep IsOpen (first.rest number poll invocation) (second.rest number other invocation) := by
  rw [World.rest, World.rest, inStep.isActive, like.registry, like.handle, inStep.now,
    like.plan.interval]
  split
  · exact inStep.setPhase number _
  · exact inStep.stop like number

theorem InStep.writeRetry (inStep : InStep IsOpen first second) (number : Nat)
    (report otherReport : Option String) :
    InStep IsOpen (first.writeRetry number poll report)
      (second.writeRetry number other otherReport) := by
  cases report with
  | none =>
      cases otherReport with
      | none => exact inStep
      | some message => exact inStep.noticeSecond _ _
  | some message =>
      cases otherReport with
      | none => exact inStep.noticeFirst _ _
      | some otherMessage => exact (inStep.noticeFirst _ _).noticeSecond _ _

/-- Whoever gives up or breaks off loses its flag and ends. -/
theorem InStep.end (inStep : InStep IsOpen first second) (like : Poll.Like poll other)
    (number invocation : Nat) {consequence same : Consequence}
    (ends : Course.goesOn consequence = false) (endsToo : Course.goesOn same = false) :
    InStep IsOpen (first.follow number poll invocation consequence)
      (second.follow number other invocation same) := by
  have taken : ∀ {first second}, InStep IsOpen first second →
      InStep IsOpen ((first.deactivate poll.registry poll.handle).setPhase number .ended)
        ((second.deactivate other.registry other.handle).setPhase number .ended) := by
    intro first second inStep
    rw [like.registry, like.handle]
    exact (inStep.deactivate poll.registry poll.handle).setPhase number .ended
  cases consequence with
  | goOn report => cases ends
  | giveUp report =>
      have told := inStep.noticeFirst (.poll number) (.stopping poll.handle report)
      cases same with
      | goOn report => cases endsToo
      | giveUp otherReport =>
          exact ((taken (told.noticeSecond _ _)).noticeFirst _ _).noticeSecond _ _
      | breakOff => exact (taken told).noticeFirst _ _
  | breakOff =>
      cases same with
      | goOn report => cases endsToo
      | giveUp report => exact (taken (inStep.noticeSecond _ _)).noticeSecond _ _
      | breakOff => exact taken inStep

theorem InStep.follow (inStep : InStep IsOpen first second) (like : Poll.Like poll other)
    (number invocation : Nat) {consequence same : Consequence}
    (goesOn : Course.goesOn same = Course.goesOn consequence) :
    InStep IsOpen (first.follow number poll invocation consequence)
      (second.follow number other invocation same) := by
  cases goes : Course.goesOn consequence with
  | false => exact inStep.end like number invocation goes (goesOn.trans goes)
  | true =>
      cases consequence with
      | goOn report =>
          cases same with
          | goOn otherReport =>
              exact (inStep.writeRetry number report otherReport).rest like number invocation
          | giveUp _ | breakOff => cases goesOn
      | giveUp _ | breakOff => cases goes

theorem InStep.finish (inStep : InStep IsOpen first second) (like : Poll.Like poll other)
    (number invocation : Nat) :
    InStep IsOpen (first.finish number poll invocation)
      (second.finish number other invocation) := by
  have operated := inStep.operations number (poll.plan.call invocation).operations
  simp only [World.finish, like.plan.operations, inStep.now, like.policy]
  refine InStep.follow ?_ like number invocation (like.plan.goesOn invocation)
  refine operated.write _ (fun _ => rfl) (fun place => ?_)
  simp only [Entry.finish?]
  split <;> rfl

theorem InStep.step? (inStep : InStep IsOpen first second) (number : Nat) :
    Option.Rel (InStep IsOpen) (first.step? number) (second.step? number) := by
  have like := inStep.polls number
  simp only [World.step?]
  generalize first.polls[number]? = poll, second.polls[number]? = other at like ⊢
  cases like with
  | none => exact .none
  | @some poll other like =>
      simp only [like.phase, like.registry, like.handle, inStep.now, inStep.isActive]
      cases poll.phase with
      | registered => exact .some (inStep.begin like number 0)
      | ended => exact .none
      | running invocation finish =>
          dsimp only
          split
          · exact .some (inStep.finish like number invocation)
          · exact .none
      | sleeping invocation wake =>
          dsimp only
          split
          · exact .some (inStep.stop like number)
          · split
            · exact .some (inStep.begin like number (invocation + 1))
            · exact .none

theorem InStep.runPoll (inStep : InStep IsOpen first second) (limit number : Nat) :
    InStep IsOpen (first.runPoll limit number) (second.runPoll limit number) := by
  induction limit generalizing first second with
  | zero => exact inStep
  | succ limit induction =>
      have stepped := inStep.step? number
      simp only [World.runPoll]
      generalize first.step? number = next, second.step? number = nextToo at stepped ⊢
      cases stepped with
      | none => exact inStep
      | some inStepStill => exact induction inStepStill

theorem InStep.phases (inStep : InStep IsOpen first second) :
    second.polls.map Poll.phase = first.polls.map Poll.phase := by
  refine List.ext_getElem? fun number => ?_
  have like := inStep.polls number
  rw [List.getElem?_map, List.getElem?_map]
  generalize first.polls[number]? = poll, second.polls[number]? = other at like ⊢
  cases like with
  | none => rfl
  | some like => exact congrArg some like.phase

theorem InStep.length (inStep : InStep IsOpen first second) :
    second.polls.length = first.polls.length := by
  simpa only [List.length_map] using congrArg List.length inStep.phases

theorem InStep.runPolls (inStep : InStep IsOpen first second) :
    InStep IsOpen first.runPolls second.runPolls := by
  rw [World.runPolls, World.runPolls, inStep.length]
  generalize List.range first.polls.length = numbers
  induction numbers generalizing first second with
  | nil => exact inStep
  | cons number numbers induction => exact induction (inStep.runPoll stepsAtOnce number)

theorem InStep.settle (inStep : InStep IsOpen first second) :
    InStep IsOpen first.settle second.settle :=
  inStep.runPolls.runPolls

theorem InStep.pass (inStep : InStep IsOpen first second) (duration : Nat) :
    InStep IsOpen { first with now := first.now + duration }
      { second with now := second.now + duration } :=
  { inStep with now := congrArg (· + duration) inStep.now }

theorem InStep.nextDue? (inStep : InStep IsOpen first second) :
    second.nextDue? = first.nextDue? := by
  have dues : ∀ world : World, (world.polls.filterMap fun poll => poll.phase.due?) =
      (world.polls.map Poll.phase).filterMap Phase.due? := by
    intro world
    rw [List.filterMap_map]
    rfl
  rw [World.nextDue?, World.nextDue?, dues, dues, inStep.phases]

/-- Time passes alike, since the same is due in both worlds. -/
theorem InStep.advance (inStep : InStep IsOpen first second) (duration : Nat) :
    InStep IsOpen (first.advance duration) (second.advance duration) := by
  fun_induction World.advance first duration generalizing second with
  | case1 first duration settled =>
      rename_i isNone
      have settledToo := inStep.settle
      rw [advance_of_none (settledToo.nextDue?.trans isNone)]
      exact settledToo.pass duration
  | case2 first duration settled due isNext wait within =>
      rename_i induction
      have settledToo := inStep.settle
      have sameWait : due - second.settle.now = wait := by rw [settledToo.now]
      rw [advance_of_within (settledToo.nextDue?.trans isNext) (sameWait ▸ within), sameWait]
      exact induction (settledToo.pass wait)
  | case3 first duration settled due isNext wait =>
      rename_i beyond
      have settledToo := inStep.settle
      have sameWait : due - second.settle.now = wait := by rw [settledToo.now]
      rw [advance_of_beyond (settledToo.nextDue?.trans isNext) (sameWait ▸ beyond)]
      exact settledToo.pass duration

theorem isActive_register_eq {world : World} {index : Nat} {registry : Registry} (plan : Plan)
    (present : world.registries[index]? = some registry) (place : Nat) (handle : Handle) :
    (world.register index registry plan).isActive place handle =
      (world.isActive place handle || decide (index = place) && handle == registry.nextHandle) := by
  change (world.setRegistry index registry.register).isActive place handle = _
  rw [isActive_setRegistry present]
  split
  · rename_i same
    rw [Registry.isActive_register, ← same, isActive_of_getElem? present]
    simp
  · rename_i different
    simp [different]

theorem InStep.register (inStep : InStep IsOpen first second) {index : Nat}
    {registry same : Registry} {plan otherPlan : Plan}
    (available : first.registry? index = some registry)
    (availableToo : second.registry? index = some same) (policy : same.policy = registry.policy)
    (like : Plan.Like registry.policy plan otherPlan) :
    InStep IsOpen (first.register index registry plan) (second.register index same otherPlan) := by
  have present := getElem?_of_available available
  have presentToo := getElem?_of_available availableToo
  have size : same.size = registry.size := by
    have sizes := inStep.size? index
    rw [World.size?, World.size?, present, presentToo] at sizes
    exact Option.some.inj sizes
  have nextHandle : same.nextHandle = registry.nextHandle := congrArg Handle.mk size
  constructor
  case now => exact inStep.now
  case polls =>
    intro number
    change Option.Rel Poll.Like (first.polls ++ [_])[number]? (second.polls ++ [_])[number]?
    rw [List.getElem?_append, List.getElem?_append, inStep.length]
    split
    · exact inStep.polls number
    · cases number - first.polls.length with
      | zero => exact .some ⟨rfl, nextHandle, policy, rfl, like⟩
      | succ => exact .none
  case starts =>
    intro number
    rw [starts_register, starts_register, inStep.starts]
  case finishTimes =>
    intro number
    rw [finishes_register, finishes_register, inStep.finishTimes]
  case isActive =>
    intro place handle
    rw [isActive_register_eq plan present, isActive_register_eq otherPlan presentToo,
      nextHandle, inStep.isActive]
  case size? =>
    intro place
    rw [size?_register plan present, size?_register otherPlan presentToo, size, inStep.size?]
  case offer? =>
    intro place isOpen
    rw [offer?_register plan present, offer?_register otherPlan presentToo,
      inStep.offer? place isOpen]
  case isTidy =>
    exact ⟨inStep.isTidy.1.register plan available,
      inStep.isTidy.2.register otherPlan availableToo⟩

end Steps

end World

/-! Commands that are like each other. -/

theorem World.offer?_operations {world : World} {number index : Nat} {policy : FailurePolicy}
    {operations : List Operation}
    (offers : (operations.foldl (operateInside number) world).offer? index = some policy) :
    world.offer? index = some policy := by
  induction operations generalizing world with
  | nil => exact offers
  | cons operation operations induction =>
      have inside : (world.operateInside number operation).offer? index = some policy :=
        induction offers
      have operated : (world.operate (.poll number) operation).1.offer? index = some policy :=
        inside
      rw [offer?_operate, Option.ite_none_left_eq_some] at operated
      exact operated.2

/-- No registry changes its policy. -/
theorem Moves.offer? {world next : World} (move : Moves world next) {index : Nat}
    {policy : FailurePolicy} (offers : next.offer? index = some policy) :
    world.offer? index = some policy := by
  cases move with
  | step number step =>
      cases isPoll : world.polls[number]? with
      | none => simp [World.step?, isPoll] at step
      | some poll =>
          rcases World.registries_of_step isPoll step with ⟨_, rfl, unchanged | taken⟩
          · rw [World.offer?_of_registries_eq unchanged] at offers
            exact World.offer?_operations offers
          · rw [World.offer?_of_registries_eq taken, World.offer?_deactivate] at offers
            exact World.offer?_operations offers
  | operate operation =>
      rw [World.offer?_operate, Option.ite_none_left_eq_some] at offers
      exact offers.2
  | register plan available =>
      rwa [World.offer?_register plan (World.getElem?_of_available available)] at offers
  | pass duration allowed => exact offers

theorem Reaches.offer? {policies : List FailurePolicy} {world : World}
    (reached : Reaches (World.start policies) world) {index : Nat} {policy : FailurePolicy}
    (offers : world.offer? index = some policy) : policies[index]? = some policy := by
  induction reached with
  | refl => exact (World.offer?_start policies index).symm.trans offers
  | tail _ move induction => exact induction (move.offer? offers)

/-- The same is done in two runs, but for plans that make no difference. -/
inductive Command.Like (IsOpen : Nat → Prop) (policies : List FailurePolicy) :
    Command → Command → Prop
  | register {index : Nat} {plan other : Plan} (canRun : Bool) : IsOpen index →
      (∀ policy, policies[index]? = some policy → Plan.Like policy plan other) →
      Like IsOpen policies (.register index plan canRun) (.register index other canRun)
  | operate (operation : Operation) : Like IsOpen policies (.operate operation) (.operate operation)
  | advance (duration : Nat) : Like IsOpen policies (.advance duration) (.advance duration)
  | settle : Like IsOpen policies .settle .settle

namespace World.InStep

variable {IsOpen : Nat → Prop} {policies : List FailurePolicy} {first second : World}

theorem perform {command other : Command} (inStep : InStep IsOpen first second)
    (reached : Reaches (start policies) first) (like : Command.Like IsOpen policies command other) :
    InStep IsOpen (first.perform command).1 (second.perform other).1 := by
  cases like with
  | operate operation => exact inStep.operate .program .program operation
  | advance duration => exact inStep.advance duration
  | settle => exact inStep.settle
  | @register index plan otherPlan canRun isOpen like =>
      have offer := inStep.offer? index isOpen
      rw [offer?_eq_map, offer?_eq_map] at offer
      cases available : first.registry? index with
      | none =>
          rw [available, Option.map_none, Option.map_eq_none_iff] at offer
          simp only [World.perform, available, offer]
          exact inStep
      | some registry =>
          rw [available, Option.map_some] at offer
          rcases Option.map_eq_some_iff.mp offer with ⟨same, availableToo, policy⟩
          simp only [World.perform, available, availableToo]
          cases canRun with
          | false => exact inStep
          | true =>
              have offers : first.offer? index = some registry.policy := by
                rw [offer?_eq_map, available, Option.map_some]
              have isPolicy := reached.offer? offers
              exact inStep.register available availableToo policy (like _ isPolicy)

theorem run {commands others : List Command} (inStep : InStep IsOpen first second)
    (reached : Reaches (start policies) first)
    (like : List.Forall₂ (Command.Like IsOpen policies) commands others) :
    InStep IsOpen (first.run commands) (second.run others) := by
  induction like generalizing first second with
  | nil => exact inStep
  | cons like _ induction =>
      exact induction (inStep.perform reached like) (reached.trans (reaches_perform first _))

end World.InStep

end MetricWatch.Polling
