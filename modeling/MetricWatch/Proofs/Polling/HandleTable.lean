import MetricWatch.Proofs.Polling.Rest

namespace MetricWatch.Polling

/-! A registry from the outside: its answers to all who deal with it, in the order of time. -/

/-- The answers that are about a handle. -/
inductive Dealing where
  | registered (registry : Nat) (handle : Handle)
  | cancelled (registry : Nat) (handle : Handle) (wasActive : Bool)
deriving DecidableEq

def Dealing.registered? (index : Nat) : Dealing → Option Handle
  | .registered registry handle => if registry = index then some handle else none
  | .cancelled _ _ _ => none

/-- The handles that a registry has given out. -/
def registeredIn (index : Nat) (dealings : List Dealing) : List Handle :=
  dealings.filterMap (Dealing.registered? index)

theorem registeredIn_append (index : Nat) (dealings : List Dealing) (dealing : Dealing) :
    registeredIn index (dealings ++ [dealing]) =
      registeredIn index dealings ++ (dealing.registered? index).toList := by
  cases isRegistered : dealing.registered? index <;>
    simp [registeredIn, List.filterMap_append, isRegistered]

namespace World

theorem knows_of_isActive {world : World} {index : Nat} {handle : Handle}
    (active : world.isActive index handle = true) : world.Knows index handle := by
  unfold isActive at active
  split at active
  · rename_i registry present
    refine ⟨registry, present, ?_⟩
    apply Classical.byContradiction
    intro beyond
    rw [Registry.isActive, List.getD_eq_getElem?_getD,
      List.getElem?_eq_none (Nat.not_lt.mp beyond)] at active
    cases active
  · cases active

theorem size?_register {world : World} {index place : Nat} {registry : Registry} (plan : Plan)
    (present : world.registries[index]? = some registry) :
    (world.register index registry plan).size? place =
      if index = place then some (registry.size + 1) else world.size? place := by
  change ((world.setRegistry index registry.register).registries[place]?).map Registry.size = _
  rw [registries_setRegistry present]
  split
  · simp [Registry.size, Registry.register]
  · rfl

theorem fades_follow (world : World) (number : Nat) (poll : Poll) (invocation : Nat)
    (consequence : Consequence) :
    world.Fades (world.follow number poll invocation consequence) :=
  have spared : Spares (number + 1) world (world.follow number poll invocation consequence) :=
    spares_follow (Nat.ne_of_lt (Nat.lt_succ_self number)) world poll invocation consequence
  spared.fades

theorem register_of_perform {world next : World} {index : Nat} {plan : Plan} {handle : Handle}
    (registered : world.perform (.register index plan true) = (next, .registered handle)) :
    ∃ registry, world.registry? index = some registry ∧
      next = world.register index registry plan ∧ handle = registry.nextHandle := by
  simp only [perform] at registered
  cases available : world.registry? index with
  | none =>
      simp only [available] at registered
      cases registered
  | some registry =>
      simp only [available, if_true] at registered
      cases registered
      exact ⟨registry, rfl, rfl, rfl⟩

/-- Where callbacks cannot be run, nothing happens at all. -/
theorem eq_of_refused {world next : World} {index : Nat} {plan : Plan}
    (refused : world.perform (.register index plan false) = (next, .cannotRun)) :
    next = world := by
  simp only [perform] at refused
  cases available : world.registry? index with
  | none =>
      simp only [available] at refused
      cases refused
  | some registry =>
      simp only [available] at refused
      cases refused
      rfl

def dealings (world : World) (operation : Operation) (reply : Reply) : List Dealing :=
  match operation, reply with
  | .cancel index poll, .cancelled wasActive =>
      ((world.handle? poll).map fun handle => .cancelled index handle wasActive).toList
  | _, _ => []

def dealingsInside (number : Nat) (world : World) : List Operation → List Dealing
  | [] => []
  | operation :: operations =>
      world.dealings operation (world.operate (.poll number) operation).2 ++
        (world.operateInside number operation).dealingsInside number operations

/-- A poll deals with registries when its callback ends. -/
def dealingsOfStep (world : World) (number : Nat) : List Dealing :=
  match world.polls[number]? with
  | none => []
  | some poll =>
      match poll.phase with
      | .running invocation _ =>
          world.dealingsInside number (poll.plan.call invocation).operations
      | .registered | .sleeping _ _ | .ended => []

end World

/-- What may happen, with the dealings in it. A callback may do more than a plan says, and
register polls, for one thing: these are moves of their own then, before it ends. -/
inductive Deals : World → List Dealing → World → Prop
  | register {world next : World} {index : Nat} {plan : Plan} {handle : Handle} :
      world.perform (.register index plan true) = (next, .registered handle) →
      Deals world [.registered index handle] next
  | refuse {world next : World} {index : Nat} {plan : Plan} :
      world.perform (.register index plan false) = (next, .cannotRun) →
      Deals world [] next
  | operate (world : World) (source : Source) (operation : Operation) :
      Deals world (world.dealings operation (world.operate source operation).2)
        (world.operate source operation).1
  | step {world next : World} (number : Nat) :
      world.step? number = some next → Deals world (world.dealingsOfStep number) next
  | conclude (world : World) (number : Nat) (poll : Poll) (invocation : Nat)
      (outcome : Outcome) :
      Deals world [] ((world.write (.poll number) (.finished outcome world.now)).follow
        number poll invocation (poll.policy.consequence outcome))
  | pass (world : World) (duration : Nat) :
      Deals world [] { world with now := world.now + duration }

inductive Run (first : World) : List Dealing → World → Prop
  | start : Run first [] first
  | tail {dealings more : List Dealing} {world next : World} :
      Run first dealings world → Deals world more next → Run first (dealings ++ more) next

theorem Moves.deals {world next : World} (move : Moves world next) :
    ∃ dealings, Deals world dealings next := by
  cases move with
  | step number step => exact ⟨_, .step number step⟩
  | operate operation => exact ⟨_, .operate world .program operation⟩
  | @register index registry plan available =>
      have registered : world.perform (.register index plan true) =
          (world.register index registry plan, .registered registry.nextHandle) := by
        simp only [World.perform, available, if_true]
      exact ⟨_, .register registered⟩
  | pass duration allowed => exact ⟨_, .pass world duration⟩

theorem Reaches.run {first world : World} (reached : Reaches first world) :
    ∃ dealings, Run first dealings world := by
  induction reached with
  | refl => exact ⟨[], .start⟩
  | tail _ move induction =>
      rcases induction with ⟨dealings, run⟩
      rcases move.deals with ⟨more, deals⟩
      exact ⟨dealings ++ more, run.tail deals⟩

/-! Cancelling tells whether a handle has been active until then. -/

/-- The answer to a cancellation, and what it does. -/
structure Cancels (world : World) (index : Nat) (handle : Handle) (result : World × Reply) :
    Prop where
  reply : result.2 = .cancelled (world.isActive index handle)
  inactive : result.1.isActive index handle = false
  others : ∀ {place other}, (place, other) ≠ (index, handle) →
    result.1.isActive place other = world.isActive place other

theorem World.cancels_operate {world : World} {index poll : Nat} {registry : Registry}
    {handle : Handle} (source : Source) (available : world.registry? index = some registry)
    (target : world.handle? poll = some handle) :
    Cancels world index handle (world.operate source (.cancel index poll)) := by
  have present := getElem?_of_available available
  have activity := isActive_of_getElem? present
  cases active : registry.isActive handle with
  | false =>
      simp only [operate, available, target, cancel, active, Bool.false_eq_true, if_false]
      constructor
      case reply => rw [activity, active]
      case inactive => rw [activity, active]
      case others => exact fun _ => rfl
  | true =>
      simp only [operate, available, target, cancel, active, if_true]
      have changed : ∀ place other,
          ((world.setRegistry index (registry.deactivate handle)).write source
            (.noticed (.cancelled handle))).isActive place other =
          if index = place then (registry.deactivate handle).isActive other
          else world.isActive place other :=
        isActive_setRegistry present
      constructor
      case reply => rw [activity, active]
      case inactive =>
        rw [changed, if_pos rfl, Registry.isActive_deactivate, bne_self_eq_false, Bool.and_false]
      case others =>
        intro place other different
        rw [changed]
        split
        · rename_i same
          subst same
          have notHandle : (other != handle) = true :=
            bne_iff_ne.mpr fun equal => different (equal ▸ rfl)
          rw [Registry.isActive_deactivate, notHandle, Bool.and_true, activity]
        · rfl

/-! What the dealings so far say about the registries. -/

structure IsTable (dealings : List Dealing) (world : World) : Prop where
  inOrder : ∀ {index size}, world.size? index = some size →
    registeredIn index dealings = (List.range size).map Handle.mk
  cancelled : ∀ {index handle}, .cancelled index handle true ∈ dealings →
    world.Knows index handle ∧ world.isActive index handle = false
  once : ∀ index handle, dealings.count (.cancelled index handle true) ≤ 1
  registeredBefore : ∀ {before index handle},
    before ++ [.cancelled index handle true] <+: dealings → .registered index handle ∈ before

namespace IsTable

variable {dealings : List Dealing} {world next : World}

theorem start (policies : List FailurePolicy) : IsTable [] (World.start policies) := by
  constructor
  case inOrder =>
    intro index size isSize
    rcases Option.map_eq_some_iff.mp isSize with ⟨registry, present, rfl⟩
    rw [World.start, List.getElem?_map] at present
    rcases Option.map_eq_some_iff.mp present with ⟨policy, _, rfl⟩
    rfl
  case cancelled =>
    intro index handle member
    exact absurd member List.not_mem_nil
  case once => exact fun _ _ => Nat.zero_le 1
  case registeredBefore =>
    intro before index handle isBefore
    simp at isBefore

theorem of_fades (table : IsTable dealings world) (fades : world.Fades next) :
    IsTable dealings next := by
  constructor
  case inOrder =>
    intro index size isSize
    exact table.inOrder ((fades.size? index).symm.trans isSize)
  case cancelled =>
    intro index handle member
    rcases table.cancelled member with ⟨known, inactive⟩
    refine ⟨fades.knows known, Bool.eq_false_iff.mpr fun active => ?_⟩
    exact Bool.false_ne_true (inactive.symm.trans (fades.isActive active))
  case once => exact table.once
  case registeredBefore => exact table.registeredBefore

/-- A registry has given out the handles that it knows. -/
theorem registered_of_knows (table : IsTable dealings world) {index : Nat} {handle : Handle}
    (known : world.Knows index handle) : .registered index handle ∈ dealings := by
  rcases World.knows_iff.mp known with ⟨size, isSize, below⟩
  have member : handle ∈ registeredIn index dealings := by
    rw [table.inOrder isSize]
    exact List.mem_map.mpr ⟨handle.index, List.mem_range.mpr below, rfl⟩
  rcases List.mem_filterMap.mp member with ⟨dealing, inDealings, isRegistered⟩
  cases dealing with
  | registered registry given =>
      rw [Dealing.registered?, Option.ite_none_right_eq_some] at isRegistered
      rcases isRegistered with ⟨rfl, equal⟩
      cases equal
      exact inDealings
  | cancelled registry given wasActive => cases isRegistered

/-- The first answer that says so is the last one: the handle had been active before. -/
theorem append_cancelled (table : IsTable dealings world) (fades : world.Fades next)
    {index : Nat} {handle : Handle} (active : world.isActive index handle = true)
    (inactive : next.isActive index handle = false) :
    IsTable (dealings ++ [.cancelled index handle true]) next := by
  have known := World.knows_of_isActive active
  have isNew : .cancelled index handle true ∉ dealings := by
    intro member
    exact Bool.false_ne_true ((table.cancelled member).2.symm.trans active)
  have tableNext := table.of_fades fades
  constructor
  case inOrder =>
    intro place size isSize
    rw [registeredIn_append, tableNext.inOrder isSize]
    exact List.append_nil _
  case cancelled =>
    intro place other member
    rcases List.mem_append.mp member with earlier | isLast
    · exact tableNext.cancelled earlier
    · cases List.mem_singleton.mp isLast
      exact ⟨fades.knows known, inactive⟩
  case once =>
    intro place other
    rw [List.count_append, List.count_singleton]
    split
    · rename_i same
      cases beq_iff_eq.mp same
      exact Nat.le_of_eq (congrArg (· + 1) (List.count_eq_zero.mpr isNew))
    · exact tableNext.once place other
  case registeredBefore =>
    intro before place other isBefore
    rcases List.prefix_concat_iff.mp isBefore with same | earlier
    · rcases List.append_inj' same rfl with ⟨rfl, isLast⟩
      cases isLast
      exact table.registered_of_knows known
    · exact table.registeredBefore earlier

theorem append_other (table : IsTable dealings world) {dealing : Dealing}
    (notCancelled : ∀ index handle, dealing ≠ .cancelled index handle true)
    (inOrder : ∀ {index size}, next.size? index = some size →
      registeredIn index (dealings ++ [dealing]) = (List.range size).map Handle.mk)
    (keeps : ∀ {index handle}, world.Knows index handle →
      next.Knows index handle ∧ next.isActive index handle = world.isActive index handle) :
    IsTable (dealings ++ [dealing]) next := by
  have earlier : ∀ {index handle}, .cancelled index handle true ∈ dealings ++ [dealing] →
      .cancelled index handle true ∈ dealings := by
    intro index handle member
    rcases List.mem_append.mp member with earlier | isLast
    · exact earlier
    · exact absurd (List.mem_singleton.mp isLast).symm (notCancelled index handle)
  constructor
  case inOrder => exact inOrder
  case cancelled =>
    intro index handle member
    rcases table.cancelled (earlier member) with ⟨known, inactive⟩
    rcases keeps known with ⟨knownStill, same⟩
    exact ⟨knownStill, same.trans inactive⟩
  case once =>
    intro index handle
    rw [List.count_append, List.count_singleton, if_neg (by simp [notCancelled])]
    exact table.once index handle
  case registeredBefore =>
    intro before index handle isBefore
    rcases List.prefix_concat_iff.mp isBefore with same | isEarlier
    · rcases List.append_inj' same rfl with ⟨rfl, isLast⟩
      exact absurd (List.singleton_inj.mp isLast).symm (notCancelled index handle)
    · exact table.registeredBefore isEarlier

theorem append_refused (table : IsTable dealings world) (index : Nat) (handle : Handle) :
    IsTable (dealings ++ [.cancelled index handle false]) world := by
  apply table.append_other
  case notCancelled => exact nofun
  case inOrder =>
    intro place size isSize
    rw [registeredIn_append, table.inOrder isSize]
    exact List.append_nil _
  case keeps => exact fun known => ⟨known, rfl⟩

theorem append_registered (table : IsTable dealings world) {index : Nat} {registry : Registry}
    (plan : Plan) (available : world.registry? index = some registry) :
    IsTable (dealings ++ [.registered index registry.nextHandle])
      (world.register index registry plan) := by
  have present := World.getElem?_of_available available
  apply table.append_other
  case notCancelled => exact nofun
  case inOrder =>
    intro place size isSize
    rw [World.size?_register plan present] at isSize
    rw [registeredIn_append, Dealing.registered?]
    split at isSize
    · rename_i same
      subst same
      have before : world.size? index = some registry.size := by
        rw [World.size?, present, Option.map_some]
      cases isSize
      rw [table.inOrder before, if_pos rfl, List.range_succ, List.map_append]
      rfl
    · rename_i different
      rw [table.inOrder isSize, if_neg different]
      exact List.append_nil _
  case keeps =>
    exact fun known => ⟨World.knows_register plan present known,
      World.isActive_register plan present known⟩

theorem operate (table : IsTable dealings world) (source : Source) (operation : Operation) :
    IsTable (dealings ++ world.dealings operation (world.operate source operation).2)
      (world.operate source operation).1 := by
  have fades := World.fades_operate world source operation
  have silent : world.dealings operation (world.operate source operation).2 = [] →
      IsTable (dealings ++ world.dealings operation (world.operate source operation).2)
        (world.operate source operation).1 := by
    intro none
    rw [none, List.append_nil]
    exact table.of_fades fades
  cases operation with
  | cancelAll index | drop index => exact silent rfl
  | cancel index poll =>
      cases available : world.registry? index with
      | none => exact silent (by simp only [World.operate, available, World.dealings])
      | some registry =>
          cases target : world.handle? poll with
          | none =>
              apply silent
              simp only [World.operate, available, target, World.dealings]
              rfl
          | some handle =>
              have cancels := World.cancels_operate source available target
              have told : world.dealings (.cancel index poll)
                  (world.operate source (.cancel index poll)).2 =
                    [.cancelled index handle (world.isActive index handle)] := by
                rw [cancels.reply, World.dealings, target]
                rfl
              rw [told]
              cases active : world.isActive index handle with
              | true => exact table.append_cancelled fades active cancels.inactive
              | false => exact (table.of_fades fades).append_refused index handle

theorem operateInside (table : IsTable dealings world) (number : Nat) (operation : Operation) :
    IsTable (dealings ++ world.dealings operation (world.operate (.poll number) operation).2)
      (world.operateInside number operation) :=
  (table.operate (.poll number) operation).of_fades (.of_registries_eq rfl)

theorem operations (table : IsTable dealings world) (number : Nat)
    (operations : List Operation) :
    IsTable (dealings ++ world.dealingsInside number operations)
      (operations.foldl (World.operateInside number) world) := by
  induction operations generalizing dealings world with
  | nil =>
      rw [World.dealingsInside, List.append_nil]
      exact table
  | cons operation operations induction =>
      rw [World.dealingsInside, ← List.append_assoc, List.foldl_cons]
      exact induction (table.operateInside number operation)

/-- A poll that ends loses its flag without any dealing. -/
theorem conclude (table : IsTable dealings world) (number : Nat) (poll : Poll)
    (invocation : Nat) (outcome : Outcome) (time : Nat) :
    IsTable dealings ((world.write (.poll number) (.finished outcome time)).follow
      number poll invocation (poll.policy.consequence outcome)) := by
  have written : world.Fades (world.write (.poll number) (.finished outcome time)) :=
    .of_registries_eq rfl
  exact table.of_fades (written.trans (World.fades_follow _ number poll invocation _))

theorem step (table : IsTable dealings world) {number : Nat}
    (step : world.step? number = some next) :
    IsTable (dealings ++ world.dealingsOfStep number) next := by
  have fades := World.fades_of_step step
  unfold World.step? at step
  unfold World.dealingsOfStep
  cases isPoll : world.polls[number]? with
  | none => simp [isPoll] at step
  | some poll =>
      simp only [isPoll] at step ⊢
      cases phase : poll.phase with
      | registered | sleeping invocation wake =>
          simp only [List.append_nil]
          exact table.of_fades fades
      | running invocation finish =>
          simp only [phase, Option.ite_none_right_eq_some, Option.some.injEq] at step
          rcases step with ⟨_, rfl⟩
          exact (table.operations number _).conclude number poll invocation _ _
      | ended =>
          rw [phase] at step
          cases step

theorem deals (table : IsTable dealings world) {more : List Dealing}
    (deals : Deals world more next) : IsTable (dealings ++ more) next := by
  cases deals with
  | register registered =>
      rcases World.register_of_perform registered with ⟨registry, available, rfl, rfl⟩
      exact table.append_registered _ available
  | refuse refused =>
      rw [List.append_nil, World.eq_of_refused refused]
      exact table
  | operate source operation => exact table.operate source operation
  | step number step => exact table.step step
  | conclude number poll invocation outcome =>
      rw [List.append_nil]
      exact table.conclude number poll invocation outcome world.now
  | pass duration =>
      rw [List.append_nil]
      exact table.of_fades (.of_registries_eq rfl)

end IsTable

theorem Run.isTable {policies : List FailurePolicy} {dealings : List Dealing} {world : World}
    (run : Run (World.start policies) dealings world) : IsTable dealings world := by
  induction run with
  | start => exact .start policies
  | tail _ deals induction => exact induction.deals deals

/-! A handle that is known only loses its activity. -/

theorem Deals.keeps {world next : World} {more : List Dealing} (deals : Deals world more next)
    {index : Nat} {handle : Handle} (known : world.Knows index handle) :
    next.Knows index handle ∧
      (next.isActive index handle = true → world.isActive index handle = true) := by
  have ofFades : world.Fades next → next.Knows index handle ∧
      (next.isActive index handle = true → world.isActive index handle = true) :=
    fun fades => ⟨fades.knows known, fades.isActive⟩
  cases deals with
  | register registered =>
      rcases World.register_of_perform registered with ⟨registry, available, rfl, rfl⟩
      have present := World.getElem?_of_available available
      refine ⟨World.knows_register _ present known, fun active => ?_⟩
      rwa [World.isActive_register _ present known] at active
  | refuse refused =>
      rw [World.eq_of_refused refused]
      exact ⟨known, id⟩
  | operate source operation => exact ofFades (World.fades_operate world source operation)
  | step number step => exact ofFades (World.fades_of_step step)
  | conclude number poll invocation outcome =>
      have written : world.Fades (world.write (.poll number) (.finished outcome world.now)) :=
        .of_registries_eq rfl
      exact ofFades (written.trans (World.fades_follow _ number poll invocation _))
  | pass duration => exact ofFades (.of_registries_eq rfl)

theorem Run.keeps {first world : World} {dealings : List Dealing} (run : Run first dealings world)
    {index : Nat} {handle : Handle} (known : first.Knows index handle) :
    world.Knows index handle ∧
      (world.isActive index handle = true → first.isActive index handle = true) := by
  induction run with
  | start => exact ⟨known, id⟩
  | tail _ deals induction =>
      rcases deals.keeps induction.1 with ⟨knownNext, wasActive⟩
      exact ⟨knownNext, fun active => induction.2 (wasActive active)⟩

/-- What holds of the handles of all registries, after any dealings. -/
structure KeepsTable (dealings : List Dealing) (world : World) : Prop where
  inOrder : ∀ {index registry}, world.registries[index]? = some registry →
    registeredIn index dealings = (List.range registry.size).map Handle.mk
  refuses : ∀ {index registry} (plan : Plan), world.registry? index = some registry →
    world.perform (.register index plan false) = (world, .cannotRun)
  staysInactive : ∀ {more later index handle}, Run world more later →
    world.Knows index handle → world.isActive index handle = false →
      later.isActive index handle = false
  cancels : ∀ {index poll registry handle} (source : Source),
    world.registry? index = some registry → world.handle? poll = some handle →
      Cancels world index handle (world.operate source (.cancel index poll))
  cancelledOnce : ∀ index handle, dealings.count (.cancelled index handle true) ≤ 1
  registeredBefore : ∀ {before index handle},
    before ++ [.cancelled index handle true] <+: dealings → .registered index handle ∈ before

/-- Handles are given out in order and never reused, and each is lost at most once. -/
theorem keepsTable_of_run {policies : List FailurePolicy} {dealings : List Dealing}
    {world : World} (run : Run (World.start policies) dealings world) :
    (∀ commands, ∃ more, Run world more (world.run commands)) ∧ KeepsTable dealings world := by
  have table := run.isTable
  refine ⟨fun commands => (World.reaches_run world commands).run, ?_⟩
  constructor
  case inOrder =>
    intro index registry present
    exact table.inOrder (by rw [World.size?, present, Option.map_some])
  case refuses =>
    intro index registry plan available
    simp only [World.perform, available]
    rfl
  case staysInactive =>
    intro more later index handle continued known inactive
    refine Bool.eq_false_iff.mpr fun active => ?_
    exact Bool.false_ne_true (inactive.symm.trans ((continued.keeps known).2 active))
  case cancels =>
    intro index poll registry handle source available target
    exact World.cancels_operate source available target
  case cancelledOnce => exact table.once
  case registeredBefore => exact table.registeredBefore

/-- A poll that is cancelled twice, while it is refused to register another one. -/
theorem keepsTable_cancelled_twice :
    let plan : Plan := ⟨100, fun _ => ⟨50, [], .succeeded⟩⟩
    let world := (World.start [.continue]).run [.register 0 plan true, .operate (.cancel 0 0),
      .register 0 plan false, .operate (.cancel 0 0), .register 0 plan true]
    let dealings : List Dealing := [.registered 0 ⟨0⟩, .cancelled 0 ⟨0⟩ true,
      .cancelled 0 ⟨0⟩ false, .registered 0 ⟨1⟩]
    Run (World.start [.continue]) dealings world ∧ KeepsTable dealings world := by
  intro plan world dealings
  let registered := ((World.start [.continue]).perform (.register 0 plan true)).1
  let cancelled := (registered.operate .program (.cancel 0 0)).1
  have isRegistered : (World.start [.continue]).perform (.register 0 plan true) =
      (registered, .registered ⟨0⟩) := rfl
  have isRefused : cancelled.perform (.register 0 plan false) = (cancelled, .cannotRun) := rfl
  have isRegisteredAgain : cancelled.perform (.register 0 plan true) =
      (world, .registered ⟨1⟩) := rfl
  have run : Run (World.start [.continue]) dealings world :=
    ((((Run.start.tail (.register isRegistered)).tail
      (.operate registered .program (.cancel 0 0))).tail (.refuse isRefused)).tail
        (.operate cancelled .program (.cancel 0 0))).tail (.register isRegisteredAgain)
  exact ⟨run, (keepsTable_of_run run).2⟩

end MetricWatch.Polling
