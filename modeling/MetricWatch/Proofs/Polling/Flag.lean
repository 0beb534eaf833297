import MetricWatch.Proofs.Polling.Cancellation

namespace MetricWatch.Polling

/-! Who takes the flag of a poll away. Handles are numbers that all registries give out
alike, so an operation may mean a poll without naming it. Still no two polls share a
flag, and a poll that fails takes its own flag and no other. -/

namespace World

instance (world : World) (poll : Poll) : DecidablePred (world.Deactivates poll)
  | .cancel index target =>
      inferInstanceAs
        (Decidable (index = poll.registry ∧ world.handle? target = some poll.handle))
  | .cancelAll index | .drop index => inferInstanceAs (Decidable (index = poll.registry))

theorem isActive_operate_of_not_deactivates {world : World} {poll : Poll} (source : Source)
    {operation : Operation} (spares : ¬ world.Deactivates poll operation) :
    (world.operate source operation).1.isActive poll.registry poll.handle =
      world.isActive poll.registry poll.handle := by
  cases operation with
  | cancel index target =>
      cases available : world.registry? index with
      | none => simp only [operate, available]
      | some registry =>
          have present := getElem?_of_available available
          cases isTarget : world.handle? target with
          | none => simp only [operate, available, isTarget]
          | some handle =>
              simp only [operate, available, isTarget, cancel]
              split
              · change (world.setRegistry index (registry.deactivate handle)).isActive _ _ = _
                rw [isActive_setRegistry present]
                split
                · rename_i same
                  have different : (poll.handle != handle) = true := by
                    rw [bne_iff_ne]
                    intro equal
                    exact spares ⟨same, isTarget.trans (congrArg some equal.symm)⟩
                  rw [Registry.isActive_deactivate, different, Bool.and_true, ← same,
                    isActive_of_getElem? present]
                · rfl
              · rfl
  | cancelAll index | drop index =>
      cases available : world.registry? index with
      | none => simp only [operate, available]
      | some registry =>
          simp only [operate, available]
          have other : index ≠ poll.registry := spares
          rw [isActive_setRegistry (getElem?_of_available available), if_neg other]

/-! What can no longer be operated on is inactive. -/

def IsTidy (world : World) : Prop :=
  ∀ registry ∈ world.registries, registry.isDropped = true →
    ∀ handle, registry.isActive handle = false

theorem isDropped_of_available {world : World} {index : Nat} {registry : Registry}
    (available : world.registry? index = some registry) : registry.isDropped = false := by
  unfold registry? at available
  split at available
  · split at available
    · cases available
    · rename_i kept
      cases available
      simpa using kept
  · cases available

namespace IsTidy

variable {world next : World} {index : Nat} {registry changed : Registry}

theorem start (policies : List FailurePolicy) : (World.start policies).IsTidy := by
  intro registry member dropped
  rcases List.mem_map.mp member with ⟨policy, _, rfl⟩
  cases dropped

theorem of_registries_eq (tidy : world.IsTidy) (equal : next.registries = world.registries) :
    next.IsTidy := by
  rw [IsTidy, equal]
  exact tidy

theorem setRegistry (tidy : world.IsTidy) (closes : changed.isDropped = true →
    ∀ handle, changed.isActive handle = false) : (world.setRegistry index changed).IsTidy := by
  intro registry member dropped
  rcases List.mem_or_eq_of_mem_set member with earlier | rfl
  · exact tidy registry earlier dropped
  · exact closes dropped

theorem deactivate (tidy : world.IsTidy) (index : Nat) (handle : Handle) :
    (world.deactivate index handle).IsTidy := by
  intro registry member dropped other
  rcases List.getElem?_of_mem member with ⟨place, present⟩
  rw [World.deactivate, List.getElem?_modify] at present
  cases earlier : world.registries[place]? with
  | none => simp [earlier] at present
  | some old =>
      have closed := tidy old (List.mem_of_getElem? earlier)
      simp only [earlier, Option.map_eq_map, Option.map_some, Option.some.injEq] at present
      split at present
      · subst present
        rw [Registry.isActive_deactivate, closed dropped other, Bool.false_and]
      · subst present
        exact closed dropped other

theorem operate (tidy : world.IsTidy) (source : Source) (operation : Operation) :
    (world.operate source operation).1.IsTidy := by
  have inactive : ∀ (registry : Registry) (handle : Handle),
      registry.cancelAll.isActive handle = false := Registry.isActive_cancelAll
  cases operation with
  | cancel index target =>
      cases available : world.registry? index with
      | none => simpa only [World.operate, available] using tidy
      | some registry =>
          cases isTarget : world.handle? target with
          | none => simpa only [World.operate, available, isTarget] using tidy
          | some handle =>
              simp only [World.operate, available, isTarget, World.cancel]
              split
              · refine of_registries_eq (tidy.setRegistry fun dropped => ?_) rfl
                have kept := isDropped_of_available available
                have impossible := kept.symm.trans dropped
                cases impossible
              · exact tidy
  | cancelAll index =>
      cases available : world.registry? index with
      | none => simpa only [World.operate, available] using tidy
      | some registry =>
          simp only [World.operate, available]
          exact tidy.setRegistry fun _ => inactive registry
  | drop index =>
      cases available : world.registry? index with
      | none => simpa only [World.operate, available] using tidy
      | some registry =>
          simp only [World.operate, available]
          exact tidy.setRegistry fun _ => inactive registry

theorem operations (tidy : world.IsTidy) (number : Nat) (operations : List Operation) :
    (operations.foldl (operateInside number) world).IsTidy := by
  induction operations generalizing world with
  | nil => exact tidy
  | cons operation operations induction =>
      exact induction ((tidy.operate (.poll number) operation).of_registries_eq rfl)

theorem register (tidy : world.IsTidy) (plan : Plan)
    (available : world.registry? index = some registry) :
    (world.register index registry plan).IsTidy := by
  have closes : registry.register.isDropped = true →
      ∀ handle, registry.register.isActive handle = false := by
    intro dropped
    have kept := isDropped_of_available available
    have impossible := kept.symm.trans dropped
    cases impossible
  have placed : (world.setRegistry index registry.register).IsTidy := tidy.setRegistry closes
  exact placed.of_registries_eq rfl

end IsTidy

section Operations

variable {world : World} {poll : Poll}

theorem IsTidy.isActive_of_unavailable (tidy : world.IsTidy) {index : Nat}
    (unavailable : world.registry? index = none) (handle : Handle) :
    world.isActive index handle = false := by
  unfold isActive
  cases present : world.registries[index]? with
  | none => rfl
  | some registry =>
      simp only [present, registry?] at unavailable
      split at unavailable
      · rename_i dropped
        exact tidy registry (List.mem_of_getElem? present) dropped handle
      · cases unavailable

theorem isActive_operate_iff (tidy : world.IsTidy) (source : Source) (operation : Operation) :
    (world.operate source operation).1.isActive poll.registry poll.handle = true ↔
      world.isActive poll.registry poll.handle = true ∧ ¬ world.Deactivates poll operation := by
  by_cases deactivates : world.Deactivates poll operation
  · simp only [deactivates, not_true_eq_false, and_false, iff_false, Bool.not_eq_true]
    cases available : world.registry? poll.registry with
    | none =>
        rw [Bool.eq_false_iff]
        intro active
        have wasActive := (fades_operate world source operation).isActive active
        rw [tidy.isActive_of_unavailable available] at wasActive
        cases wasActive
    | some registry => exact isActive_operate_of_deactivates available source deactivates
  · rw [isActive_operate_of_not_deactivates source deactivates]
    simp only [deactivates, not_false_eq_true, and_true]

theorem polls_operate (world : World) (source : Source) (operation : Operation) :
    (world.operate source operation).1.polls = world.polls := by
  cases operation with
  | cancel index target =>
      cases available : world.registry? index with
      | none => simp only [operate, available]
      | some registry =>
          cases isTarget : world.handle? target with
          | none => simp only [operate, available, isTarget]
          | some handle =>
              simp only [operate, available, isTarget, cancel]
              split <;> rfl
  | cancelAll index | drop index =>
      cases available : world.registry? index with
      | none => simp only [operate, available]
      | some registry =>
          simp only [operate, available]
          rfl

/-- Which poll is meant does not change by operations. -/
theorem deactivates_operate (source : Source) (earlier operation : Operation) :
    (world.operate source earlier).1.Deactivates poll operation ↔
      world.Deactivates poll operation := by
  cases operation with
  | cancel index target => simp only [Deactivates, handle?, polls_operate]
  | cancelAll index | drop index => exact Iff.rfl

theorem deactivates_operateInside (number : Nat) (earlier operation : Operation) :
    (world.operateInside number earlier).Deactivates poll operation ↔
      world.Deactivates poll operation := by
  refine Iff.trans ?_ (deactivates_operate (.poll number) earlier operation)
  cases operation <;> exact Iff.rfl

/-- A flag is still there after some operations if it was before and none of them takes it. -/
theorem isActive_foldl_iff {apply : World → Operation → World}
    (tidies : ∀ {world} operation, world.IsTidy → (apply world operation).IsTidy)
    (takes : ∀ {world} operation, world.IsTidy →
      ((apply world operation).isActive poll.registry poll.handle = true ↔
        world.isActive poll.registry poll.handle = true ∧ ¬ world.Deactivates poll operation))
    (means : ∀ {world} earlier operation,
      (apply world earlier).Deactivates poll operation ↔ world.Deactivates poll operation)
    (tidy : world.IsTidy) (operations : List Operation) :
    (operations.foldl apply world).isActive poll.registry poll.handle = true ↔
      world.isActive poll.registry poll.handle = true ∧
        ∀ operation ∈ operations, ¬ world.Deactivates poll operation := by
  induction operations generalizing world with
  | nil => simp
  | cons operation operations induction =>
      rw [List.foldl_cons, induction (tidies operation tidy), takes operation tidy, and_assoc,
        List.forall_mem_cons]
      simp only [means]

theorem isActiveAfter_iff (tidy : world.IsTidy) (number : Nat) (operations : List Operation) :
    world.isActiveAfter number operations poll.registry poll.handle = true ↔
      world.isActive poll.registry poll.handle = true ∧
        ∀ operation ∈ operations, ¬ world.Deactivates poll operation :=
  @isActive_foldl_iff world poll (operateInside number)
    (fun operation tidy => (tidy.operate (.poll number) operation).of_registries_eq rfl)
    (fun operation tidy => isActive_operate_iff tidy (.poll number) operation)
    (deactivates_operateInside number) tidy operations

end Operations

/-! A step of a poll, whatever it is, changes the registries by the operations of its
callback, and then takes its own flag or none. -/

theorem registries_follow (world : World) (number : Nat) (poll : Poll) (invocation : Nat)
    (consequence : Consequence) :
    (world.follow number poll invocation consequence).registries =
      if Course.goesOn consequence then world.registries
      else (world.deactivate poll.registry poll.handle).registries := by
  cases consequence with
  | goOn report =>
      have retried : (world.writeRetry number poll report).registries = world.registries := by
        cases report <;> rfl
      simp only [follow, rest, Course.goesOn, if_true]
      split <;> exact retried
  | giveUp report | breakOff => rfl

theorem registries_of_step {world next : World} {number : Nat} {poll : Poll}
    (isPoll : world.polls[number]? = some poll) (step : world.step? number = some next) :
    ∃ operated, operated = poll.callback.foldl (operateInside number) world ∧
      (next.registries = operated.registries ∨
        next.registries = (operated.deactivate poll.registry poll.handle).registries) := by
  refine ⟨_, rfl, ?_⟩
  simp only [step?, isPoll] at step
  cases phase : poll.phase with
  | registered =>
      simp only [phase, Option.some.injEq] at step
      simp only [Poll.callback, phase, ← step]
      exact .inl rfl
  | running invocation finish =>
      simp only [phase, Option.ite_none_right_eq_some, Option.some.injEq] at step
      simp only [Poll.callback, phase, ← step.2, World.finish, registries_follow]
      split
      · exact .inl rfl
      · exact .inr rfl
  | sleeping invocation wake =>
      simp only [phase] at step
      simp only [Poll.callback, phase]
      split at step
      · cases step
        exact .inl rfl
      · simp only [Option.ite_none_right_eq_some, Option.some.injEq] at step
        rw [← step.2]
        exact .inl rfl
  | ended => simp [phase] at step

theorem IsTidy.step {world next : World} {number : Nat} (tidy : world.IsTidy)
    (step : world.step? number = some next) : next.IsTidy := by
  cases isPoll : world.polls[number]? with
  | none => simp [step?, isPoll] at step
  | some poll =>
      rcases registries_of_step isPoll step with ⟨_, rfl, unchanged | taken⟩
      · exact (tidy.operations number poll.callback).of_registries_eq unchanged
      · exact ((tidy.operations number poll.callback).deactivate _ _).of_registries_eq taken

/-- The step of another poll takes the flag of this one only if its callback does. -/
theorem isActive_of_step_of_ne {world next : World} {number : Nat} {poll : Poll}
    (isPoll : world.polls[number]? = some poll) (step : world.step? number = some next)
    {index : Nat} {handle : Handle} (different : (poll.registry, poll.handle) ≠ (index, handle)) :
    next.isActive index handle = world.isActiveAfter number poll.callback index handle := by
  have congruent : ∀ {first second : World}, first.registries = second.registries →
      first.isActive index handle = second.isActive index handle := by
    intro first second equal
    simp only [isActive, equal]
  rcases registries_of_step isPoll step with ⟨_, rfl, unchanged | taken⟩
  · exact congruent unchanged
  · rw [congruent taken, isActive_deactivate]
    have other : (decide (poll.registry = index) && handle == poll.handle) = false := by
      rw [Bool.and_eq_false_imp, decide_eq_true_iff]
      intro same
      exact beq_false_of_ne fun equal => different (by rw [same, equal])
    rw [other, Bool.not_false, Bool.and_true, isActiveAfter]

end World

theorem Moves.isTidy {world next : World} (move : Moves world next) (tidy : world.IsTidy) :
    next.IsTidy := by
  cases move with
  | step number step => exact tidy.step step
  | operate operation => exact tidy.operate .program operation
  | register plan available => exact tidy.register plan available
  | pass duration allowed => exact tidy.of_registries_eq rfl

theorem Reaches.isTidy {policies : List FailurePolicy} {world : World}
    (reached : Reaches (World.start policies) world) : world.IsTidy := by
  induction reached with
  | refl => exact .start policies
  | tail _ move induction => exact move.isTidy induction

/-- A poll gets a handle that no other poll of its registry has. -/
theorem Moves.handle_ne {policies : List FailurePolicy} {world next : World}
    (reached : Reaches (World.start policies) world) (move : Moves world next)
    {number other : Nat} {poll old : Poll} (isPoll : next.polls[number]? = some poll)
    (isNew : world.polls[number]? = none) (isOld : world.polls[other]? = some old)
    (registry : poll.registry = old.registry) : poll.handle ≠ old.handle := by
  intro handle
  rcases move.new_poll isPoll isNew with ⟨index, fresh, plan, available, _, _, rfl⟩
  rcases Reaches.knows reached isOld with ⟨found, present, below⟩
  rw [← registry, World.getElem?_of_available available, Option.some.injEq] at present
  rw [← handle, ← present] at below
  exact Nat.lt_irrefl _ below

/-- No two polls share a flag. -/
theorem Reaches.number_unique {policies : List FailurePolicy} {world : World}
    (reached : Reaches (World.start policies) world) {number other : Nat} {poll same : Poll}
    (isPoll : world.polls[number]? = some poll) (isSame : world.polls[other]? = some same)
    (registry : poll.registry = same.registry) (handle : poll.handle = same.handle) :
    number = other := by
  induction reached generalizing poll same with
  | refl => simp [World.start] at isPoll
  | @tail before after reached move induction =>
      cases earlier : before.polls[number]? with
      | none =>
          cases earlierSame : before.polls[other]? with
          | none =>
              rcases move.new_poll isPoll earlier with ⟨_, _, _, _, _, isLast, _⟩
              rcases move.new_poll isSame earlierSame with ⟨_, _, _, _, _, isLastToo, _⟩
              rw [isLast, isLastToo]
          | some old =>
              rcases move.getElem? earlierSame with ⟨phase, isSameStill⟩
              rw [isSame, Option.some.injEq] at isSameStill
              subst isSameStill
              have different := Moves.handle_ne reached move isPoll earlier earlierSame registry
              exact absurd handle different
      | some old =>
          rcases move.getElem? earlier with ⟨phase, isPollStill⟩
          rw [isPoll, Option.some.injEq] at isPollStill
          subst isPollStill
          cases earlierSame : before.polls[other]? with
          | none =>
              have different :=
                Moves.handle_ne reached move isSame earlierSame earlier registry.symm
              exact absurd handle.symm different
          | some oldSame =>
              rcases move.getElem? earlierSame with ⟨phaseSame, isSameStill⟩
              rw [isSame, Option.some.injEq] at isSameStill
              subst isSameStill
              exact induction earlier earlierSame registry handle

/-- A poll keeps its flag in the step of another one if the callback of that one does not mean
it. -/
theorem World.isActive_of_step_of_other {policies : List FailurePolicy} {world next : World}
    {number other : Nat} {poll acting : Poll} (reached : Reaches (World.start policies) world)
    (different : other ≠ number) (isPoll : world.polls[number]? = some poll)
    (isActing : world.polls[other]? = some acting) (step : world.step? other = some next) :
    next.isActive poll.registry poll.handle = true ↔
      world.isActive poll.registry poll.handle = true ∧
        ∀ operation ∈ acting.callback, ¬ world.Deactivates poll operation := by
  have others : (acting.registry, acting.handle) ≠ (poll.registry, poll.handle) := by
    intro equal
    rw [Prod.mk.injEq] at equal
    exact different (reached.number_unique isActing isPoll equal.1 equal.2)
  rw [isActive_of_step_of_ne isActing step others]
  exact isActiveAfter_iff reached.isTidy other acting.callback

end MetricWatch.Polling
