import MetricWatch.Proofs.Polling.Flag
import MetricWatch.Proofs.Polling.HandleTable

namespace MetricWatch.Polling

/-! What the activity of a handle tells about its poll. It is the answer to three questions,
which have nothing to do with flags: has the handle been registered, has it been cancelled
since, and has its poll ended? -/

/-- What is done to handles from outside their polls. -/
inductive Change where
  | registered (index : Nat) (handle : Handle)
  | cancelled (index : Nat) (handle : Handle)
  | cancelledAll (index : Nat)
deriving DecidableEq

def Change.Cancels (index : Nat) (handle : Handle) : Change → Prop
  | .registered _ _ => False
  | .cancelled place other => place = index ∧ other = handle
  | .cancelledAll place => place = index

/-- Only what comes after its registration cancels a handle. -/
def IsCancelled (changes : List Change) (index : Nat) (handle : Handle) : Prop :=
  ∃ change, change.Cancels index handle ∧ [.registered index handle, change].Sublist changes

theorem isCancelled_append {first second : List Change} {index : Nat} {handle : Handle} :
    IsCancelled (first ++ second) index handle ↔
      IsCancelled first index handle ∨
        (.registered index handle ∈ first ∧ ∃ change ∈ second, change.Cancels index handle) ∨
        IsCancelled second index handle := by
  constructor
  · rintro ⟨change, cancels, inOrder⟩
    rcases List.sublist_append_iff.mp inOrder with ⟨front, back, split, isFront, isBack⟩
    match front, split with
    | [], split =>
        rw [List.nil_append] at split
        exact .inr (.inr ⟨change, cancels, split ▸ isBack⟩)
    | [_], split =>
        cases split
        exact .inr (.inl ⟨List.singleton_sublist.mp isFront, change,
          List.singleton_sublist.mp isBack, cancels⟩)
    | [_, _], split =>
        cases split
        exact .inl ⟨change, cancels, isFront⟩
  · rintro (⟨change, cancels, inOrder⟩ | ⟨registered, change, member, cancels⟩ |
      ⟨change, cancels, inOrder⟩)
    · exact ⟨change, cancels, inOrder.trans (List.sublist_append_left first second)⟩
    · exact ⟨change, cancels, (List.singleton_sublist.mpr registered).append
        (List.singleton_sublist.mpr member)⟩
    · exact ⟨change, cancels, inOrder.trans (List.sublist_append_right first second)⟩

theorem not_isCancelled_of_not_mem {changes : List Change} {index : Nat} {handle : Handle}
    (notMember : .registered index handle ∉ changes) : ¬ IsCancelled changes index handle := by
  rintro ⟨_, _, inOrder⟩
  exact notMember (inOrder.subset List.mem_cons_self)

theorem not_isCancelled_singleton (change : Change) (index : Nat) (handle : Handle) :
    ¬ IsCancelled [change] index handle := by
  rintro ⟨_, _, inOrder⟩
  exact absurd inOrder.length_le (by simp)

namespace World

/-- Dropping a registry cancels all of its handles. -/
def change? (world : World) : Operation → Option Change
  | .cancel index target => (world.handle? target).map (.cancelled index)
  | .cancelAll index | .drop index => some (.cancelledAll index)

def changes (world : World) (operations : List Operation) : List Change :=
  operations.filterMap world.change?

theorem exists_cancels_iff {world : World} {poll : Poll} {operations : List Operation} :
    (∃ change ∈ world.changes operations, change.Cancels poll.registry poll.handle) ↔
      ∃ operation ∈ operations, world.Deactivates poll operation := by
  have same : ∀ operation, (∃ change, world.change? operation = some change ∧
      change.Cancels poll.registry poll.handle) ↔ world.Deactivates poll operation := by
    intro operation
    cases operation with
    | cancelAll index | drop index => simp [change?, Change.Cancels, Deactivates]
    | cancel index target =>
        cases isTarget : world.handle? target <;>
          simp [change?, Change.Cancels, Deactivates, isTarget]
  simp only [changes, List.mem_filterMap, ← same]
  grind

theorem not_registered_mem_changes {world : World} {operations : List Operation} {index : Nat}
    {handle : Handle} : .registered index handle ∉ world.changes operations := by
  intro member
  rcases List.mem_filterMap.mp member with ⟨operation, _, isChange⟩
  cases operation with
  | cancelAll index | drop index => cases isChange
  | cancel index target =>
      rcases Option.map_eq_some_iff.mp isChange with ⟨_, _, impossible⟩
      cases impossible

theorem isCancelled_append_changes {changes : List Change} {world : World}
    {operations : List Operation} {poll : Poll}
    (registered : .registered poll.registry poll.handle ∈ changes) :
    IsCancelled (changes ++ world.changes operations) poll.registry poll.handle ↔
      IsCancelled changes poll.registry poll.handle ∨
        ∃ operation ∈ operations, world.Deactivates poll operation := by
  have notAmong : ¬ IsCancelled (world.changes operations) poll.registry poll.handle :=
    not_isCancelled_of_not_mem not_registered_mem_changes
  rw [isCancelled_append, exists_cancels_iff]
  simp only [registered, true_and, notAmong, or_false]

end World

/-- One move of a run, and the changes that it makes. -/
inductive Makes : World → List Change → World → Prop
  | step {world next : World} {number : Nat} {poll : Poll} :
      world.polls[number]? = some poll → world.step? number = some next →
      Makes world (world.changes poll.callback) next
  | operate (world : World) (operation : Operation) :
      Makes world (world.changes [operation]) (world.operate .program operation).1
  | register {world : World} {index : Nat} {registry : Registry} (plan : Plan) :
      world.registry? index = some registry →
      Makes world [.registered index registry.nextHandle] (world.register index registry plan)
  | pass {world : World} (duration : Nat) :
      world.Allows duration → Makes world [] { world with now := world.now + duration }

inductive History (first : World) : List Change → World → Prop
  | start : History first [] first
  | tail {changes more : List Change} {world next : World} :
      History first changes world → Makes world more next →
      History first (changes ++ more) next

variable {first world next : World} {changes more : List Change}

theorem Makes.moves (makes : Makes world changes next) : Moves world next := by
  cases makes with
  | step isPoll step => exact .step _ step
  | operate operation => exact .operate world operation
  | register plan available => exact .register plan available
  | pass duration allowed => exact .pass duration allowed

theorem History.reaches (history : History first changes world) : Reaches first world := by
  induction history with
  | start => exact .refl
  | tail _ makes induction => exact induction.tail makes.moves

theorem Moves.makes (move : Moves world next) : ∃ changes, Makes world changes next := by
  cases move with
  | step number step =>
      cases isPoll : world.polls[number]? with
      | none => simp [World.step?, isPoll] at step
      | some poll => exact ⟨_, .step isPoll step⟩
  | operate operation => exact ⟨_, .operate world operation⟩
  | register plan available => exact ⟨_, .register plan available⟩
  | pass duration allowed => exact ⟨_, .pass duration allowed⟩

theorem History.reaching (history : History first changes world)
    (continued : Reaches world next) : ∃ more, History first (changes ++ more) next := by
  induction continued with
  | refl => exact ⟨[], by rwa [List.append_nil]⟩
  | tail _ move induction =>
      rcases induction with ⟨earlier, history⟩
      rcases move.makes with ⟨more, makes⟩
      exact ⟨earlier ++ more, List.append_assoc _ _ _ ▸ history.tail makes⟩

theorem World.knows_register_iff {index place : Nat} {registry : Registry} {handle : Handle}
    (plan : Plan) (present : world.registries[index]? = some registry) :
    (world.register index registry plan).Knows place handle ↔
      world.Knows place handle ∨ place = index ∧ handle = registry.nextHandle := by
  have isNext : handle = registry.nextHandle ↔ handle.index = registry.size :=
    ⟨fun equal => by rw [equal]; rfl, fun equal => by cases handle; exact congrArg Handle.mk equal⟩
  rw [knows_iff, knows_iff, size?_register plan present, isNext]
  split
  · rename_i same
    subst same
    have before : world.size? index = some registry.size := by
      rw [size?, present, Option.map_some]
    simp only [before, Option.some.injEq, exists_eq_left', true_and]
    omega
  · rename_i different
    simp only [Ne.symm different, false_and, or_false]

theorem World.Fades.knows_iff {index : Nat} {handle : Handle} (fades : world.Fades next) :
    next.Knows index handle ↔ world.Knows index handle := by
  rw [World.knows_iff, World.knows_iff, fades.size?]

/-- A step that takes a poll to its end takes its flag, and no other step does. -/
theorem Course.Step.isActive_iff {plan : Plan} {policy : FailurePolicy} {course next : Course}
    (step : Step plan policy course next) :
    next.isActive = true ↔ course.isActive = true ∧ next.phase ≠ .ended := by
  cases step with
  | first phase | again phase active due => simp [begin]
  | stop phase inactive => simp [inactive]
  | finish phase due =>
      simp only [Course.finish]
      split
      · rename_i sleeps
        simp only [Bool.and_eq_true] at sleeps
        simp [sleeps.1]
      · simp

/-! What a history tells at any moment, by what a move adds to it. -/

/-- A poll that has got this handle when it was registered. -/
structure World.HasPoll (world : World) (index : Nat) (handle : Handle) (number : Nat)
    (poll : Poll) : Prop where
  isPoll : world.polls[number]? = some poll
  registry : poll.registry = index
  handle : poll.handle = handle

/-- Every handle that is registered has its poll, and no other handle has. -/
structure IsRegister (changes : List Change) (world : World) : Prop where
  registered : ∀ index handle, .registered index handle ∈ changes ↔ world.Knows index handle
  hasPoll : ∀ {index handle}, world.Knows index handle →
    ∃ number poll, world.HasPoll index handle number poll

namespace IsRegister

theorem start (policies : List FailurePolicy) : IsRegister [] (World.start policies) := by
  have knowsNone : ∀ index handle, ¬ (World.start policies).Knows index handle := by
    rintro index handle ⟨registry, present, below⟩
    have member := List.mem_of_getElem? present
    rcases List.mem_map.mp member with ⟨policy, _, rfl⟩
    exact absurd below (Nat.not_lt_zero _)
  constructor
  · intro index handle
    simp [knowsNone]
  · intro index handle known
    exact absurd known (knowsNone index handle)

theorem of_fades (register : IsRegister changes world) (move : Moves world next)
    (fades : world.Fades next) (silent : ∀ index handle, .registered index handle ∉ more) :
    IsRegister (changes ++ more) next := by
  constructor
  · intro index handle
    rw [List.mem_append, fades.knows_iff, ← register.registered]
    simp [silent]
  · intro index handle known
    rcases register.hasPoll (fades.knows_iff.mp known) with ⟨number, poll, hasPoll⟩
    rcases move.getElem? hasPoll.isPoll with ⟨phase, isPollNext⟩
    exact ⟨number, _, isPollNext, hasPoll.registry, hasPoll.handle⟩

theorem append_registered (register : IsRegister changes world) {index : Nat}
    {registry : Registry} (plan : Plan) (available : world.registry? index = some registry) :
    IsRegister (changes ++ [.registered index registry.nextHandle])
      (world.register index registry plan) := by
  have present := World.getElem?_of_available available
  constructor
  · intro place handle
    rw [World.knows_register_iff plan present, ← register.registered, List.mem_append,
      List.mem_singleton, Change.registered.injEq]
  · intro place handle known
    rcases (World.knows_register_iff plan present).mp known with earlier | ⟨rfl, rfl⟩
    · rcases register.hasPoll earlier with ⟨number, poll, hasPoll⟩
      exact ⟨number, poll, World.getElem?_register plan hasPoll.isPoll, hasPoll.registry,
        hasPoll.handle⟩
    · exact ⟨world.polls.length, _, List.getElem?_concat_length, rfl, rfl⟩

theorem makes (register : IsRegister changes world) (makes : Makes world more next) :
    IsRegister (changes ++ more) next := by
  have move := makes.moves
  cases makes with
  | step isPoll step =>
      exact register.of_fades move (World.fades_of_step step)
        fun _ _ => World.not_registered_mem_changes
  | operate operation =>
      exact register.of_fades move (World.fades_operate world .program operation)
        fun _ _ => World.not_registered_mem_changes
  | register plan available => exact register.append_registered plan available
  | pass duration allowed => exact register.of_fades move (.of_registries_eq rfl) nofun

end IsRegister

theorem History.isRegister {policies : List FailurePolicy}
    (history : History (World.start policies) changes world) : IsRegister changes world := by
  induction history with
  | start => exact .start policies
  | tail _ makes induction => exact induction.makes makes

section Activity

variable {policies : List FailurePolicy} {number : Nat} {poll : Poll}

/-- How the activity of a poll follows from what has been done to it and whether it goes on. -/
def Poll.IsTold (changes : List Change) (world : World) (poll : Poll) : Prop :=
  world.isActive poll.registry poll.handle = true ↔
    ¬ IsCancelled changes poll.registry poll.handle ∧ poll.phase ≠ .ended

theorem Poll.IsTold.of_operations {operations : List Operation}
    (registered : .registered poll.registry poll.handle ∈ changes)
    (told : poll.IsTold changes world)
    (flag : next.isActive poll.registry poll.handle = true ↔
      world.isActive poll.registry poll.handle = true ∧
        ∀ operation ∈ operations, ¬ world.Deactivates poll operation) :
    poll.IsTold (changes ++ world.changes operations) next := by
  rw [Poll.IsTold] at told
  rw [Poll.IsTold, flag, told, World.isCancelled_append_changes registered]
  simp only [not_or, not_exists, not_and]
  exact and_right_comm

theorem isTold_step (reached : Reaches (World.start policies) world)
    (registered : .registered poll.registry poll.handle ∈ changes)
    (isPoll : world.polls[number]? = some poll) (told : poll.IsTold changes world)
    (step : world.step? number = some next) :
    ∃ phase, next.polls[number]? = some { poll with phase } ∧
      { poll with phase }.IsTold (changes ++ world.changes poll.callback) next := by
  rcases World.course_of_step isPoll step with ⟨phase, isPollNext, stepped⟩
  have flag := (Course.Step.of_step? stepped).isActive_iff
  have operated : poll.IsTold (changes ++ world.changes poll.callback)
      (poll.callback.foldl (World.operateInside number) world) :=
    told.of_operations registered (World.isActiveAfter_iff (Reaches.isTidy reached) number _)
  have goesOn : poll.phase ≠ .ended := by
    intro ended
    simp [World.step?, isPoll, ended] at step
  refine ⟨phase, isPollNext, flag.trans (and_congr_left fun _ => ?_)⟩
  exact operated.trans (and_iff_left goesOn)

theorem Makes.isTold (makes : Makes world more next)
    (reached : Reaches (World.start policies) world)
    (registered : .registered poll.registry poll.handle ∈ changes)
    (isPoll : world.polls[number]? = some poll) (told : poll.IsTold changes world) :
    ∃ phase, next.polls[number]? = some { poll with phase } ∧
      { poll with phase }.IsTold (changes ++ more) next := by
  cases makes with
  | @step _ other acting isActing step =>
      by_cases same : other = number
      · subst same
        have equal := isActing.symm.trans isPoll
        cases equal
        exact isTold_step reached registered isPoll told step
      · have spared := World.spares_of_step same step
        have flag := World.isActive_of_step_of_other reached same isPoll isActing step
        exact ⟨poll.phase, spared.poll.trans isPoll, told.of_operations registered flag⟩
  | operate operation =>
      have spared := World.Spares.operate number world .program operation
      refine ⟨poll.phase, spared.poll.trans isPoll, told.of_operations registered ?_⟩
      rw [World.isActive_operate_iff (Reaches.isTidy reached)]
      simp
  | register plan available =>
      have present := World.getElem?_of_available available
      have known := Reaches.knows reached isPoll
      refine ⟨poll.phase, World.getElem?_register plan isPoll, ?_⟩
      rw [Poll.IsTold, World.isActive_register plan present known, isCancelled_append]
      simp only [not_isCancelled_singleton, List.mem_singleton, exists_eq_left, Change.Cancels,
        and_false, or_false]
      exact told
  | pass duration allowed =>
      rw [List.append_nil]
      exact ⟨poll.phase, isPoll, told⟩

/-- A handle is not cancelled in the move in which it is registered. -/
theorem Makes.not_isCancelled (makes : Makes world more next) (index : Nat) (handle : Handle) :
    ¬ IsCancelled more index handle := by
  cases makes with
  | step isPoll step => exact not_isCancelled_of_not_mem World.not_registered_mem_changes
  | operate operation => exact not_isCancelled_of_not_mem World.not_registered_mem_changes
  | register plan available => exact not_isCancelled_singleton _ index handle
  | pass duration allowed => exact not_isCancelled_of_not_mem List.not_mem_nil

theorem Makes.isTold_new {index : Nat} {registry : Registry} {plan : Plan}
    (makes : Makes world more (world.register index registry plan))
    (register : IsRegister changes world) (available : world.registry? index = some registry) :
    Poll.IsTold (changes ++ more) (world.register index registry plan)
      ⟨index, registry.nextHandle, registry.policy, plan, .registered⟩ := by
  have present := World.getElem?_of_available available
  have active := World.isActive_register_nextHandle plan present
  have isNew : .registered index registry.nextHandle ∉ changes := by
    intro member
    rcases (register.registered _ _).mp member with ⟨found, isFound, below⟩
    rw [present, Option.some.injEq] at isFound
    subst isFound
    exact Nat.lt_irrefl _ below
  have notCancelled : ¬ IsCancelled (changes ++ more) index registry.nextHandle := by
    rw [isCancelled_append]
    simp only [not_isCancelled_of_not_mem isNew, isNew, makes.not_isCancelled, false_and,
      or_false, not_false_eq_true]
  exact ⟨fun _ => ⟨notCancelled, nofun⟩, fun _ => active⟩

theorem History.isTold (history : History (World.start policies) changes world)
    (isPoll : world.polls[number]? = some poll) : poll.IsTold changes world := by
  induction history generalizing poll with
  | start => simp [World.start] at isPoll
  | @tail changes more before after history makes induction =>
      cases earlier : before.polls[number]? with
      | none =>
          rcases makes.moves.new_poll isPoll earlier with
            ⟨index, registry, plan, available, rfl, _, rfl⟩
          exact makes.isTold_new history.isRegister available
      | some old =>
          have registered := (history.isRegister.registered _ _).mpr
            (Reaches.knows history.reaches earlier)
          rcases makes.isTold history.reaches registered earlier (induction earlier) with
            ⟨phase, isPollStill, told⟩
          rw [isPoll, Option.some.injEq] at isPollStill
          subst isPollStill
          exact told

end Activity

/-! What a poll is doing while it is active. -/

namespace Course

/-- A poll sleeps for its interval, counted from the end of its last invocation. -/
def WakesInTime (plan : Plan) (course : Course) : Prop :=
  ∀ invocation wake, course.phase = .sleeping invocation wake →
    ∃ last, course.finishes.getLast? = some last ∧ wake = last.time + plan.interval

theorem WakesInTime.proceeds {timely : Prop} {plan : Plan} {policy : FailurePolicy}
    {course next : Course} (inTime : course.WakesInTime plan)
    (proceeds : Proceeds timely plan policy course next) : next.WakesInTime plan := by
  cases proceeds with
  | deactivate => exact inTime
  | wait duration => exact inTime
  | step step =>
      cases Step.of_step? step with
      | first phase | again phase active due | stop phase inactive => exact nofun
      | finish phase due =>
          intro invocation wake sleeping
          rw [finishes_finish]
          refine ⟨_, List.getLast?_concat, ?_⟩
          simp only [Course.finish] at sleeping
          split at sleeping
          · cases sleeping
            rfl
          · cases sleeping

end Course

theorem Reaches.wakesInTime {policies : List FailurePolicy} {world : World}
    (reached : Reaches (World.start policies) world) {number : Nat} {poll : Poll}
    (isPoll : world.polls[number]? = some poll) :
    (world.course number poll).WakesInTime poll.plan := by
  have kept : ∀ {plan : Plan} {policy : FailurePolicy} {course next : Course},
      course.WakesInTime plan → Course.Proceeds False plan policy course next →
        next.WakesInTime plan :=
    fun inTime proceeds => inTime.proceeds proceeds
  exact reached.holds False.elim (fun _ _ _ => nofun) kept isPoll

def World.IsRunning (world : World) (poll : Poll) : Prop :=
  ∃ invocation finish, poll.phase = .running invocation finish ∧ world.now < finish

/-- The poll is asleep, no longer than its interval after the end of its last invocation. -/
def World.IsAsleep (world : World) (number : Nat) (poll : Poll) : Prop :=
  ∃ invocation wake last, poll.phase = .sleeping invocation wake ∧ world.now < wake ∧
    (world.finishes number).getLast? = some last ∧ wake ≤ last.time + poll.plan.interval

/-- What the activity of handles says about their polls, given all that has been done to
them, and what it says once all polls have done what they are ready for. -/
structure TellsTruth (changes : List Change) (world : World) : Prop where
  hasPoll : ∀ index handle, .registered index handle ∈ changes ↔
    ∃ number poll, world.HasPoll index handle number poll
  hasOnePoll : ∀ {index handle number other poll same},
    world.HasPoll index handle number poll → world.HasPoll index handle other same →
      number = other
  isActive : ∀ index handle, world.isActive index handle = true ↔
    .registered index handle ∈ changes ∧ ¬ IsCancelled changes index handle ∧
      ∀ number poll, world.HasPoll index handle number poll → poll.phase ≠ .ended
  inactive : ∀ {index handle number poll}, world.HasPoll index handle number poll →
    poll.phase = .ended → world.isActive index handle = false
  goesOn : world.IsAtRest → ∀ {index handle number poll},
    world.HasPoll index handle number poll → world.isActive index handle = true →
      world.IsRunning poll ∨ world.IsAsleep number poll
  ends : world.IsAtRest → ∀ {index handle number poll},
    world.HasPoll index handle number poll → IsCancelled changes index handle →
      ¬ world.IsRunning poll → poll.phase = .ended

namespace History

variable {policies : List FailurePolicy} {index number : Nat} {handle : Handle} {poll : Poll}
  (history : History (World.start policies) changes world)

include history

theorem registered_iff : .registered index handle ∈ changes ↔
    ∃ number poll, world.HasPoll index handle number poll := by
  refine (history.isRegister.registered index handle).trans ⟨history.isRegister.hasPoll, ?_⟩
  rintro ⟨number, poll, isPoll, rfl, rfl⟩
  exact Reaches.knows history.reaches isPoll

theorem isActive_iff (hasPoll : world.HasPoll index handle number poll) :
    world.isActive index handle = true ↔
      ¬ IsCancelled changes index handle ∧ poll.phase ≠ .ended := by
  rcases hasPoll with ⟨isPoll, rfl, rfl⟩
  exact history.isTold isPoll

theorem hasPoll_unique {other : Nat} {same : Poll}
    (hasPoll : world.HasPoll index handle number poll)
    (hasSame : world.HasPoll index handle other same) : number = other :=
  Reaches.number_unique history.reaches hasPoll.isPoll hasSame.isPoll
    (hasPoll.registry.trans hasSame.registry.symm) (hasPoll.handle.trans hasSame.handle.symm)

theorem isActive_iff_of_registered : world.isActive index handle = true ↔
    .registered index handle ∈ changes ∧ ¬ IsCancelled changes index handle ∧
      ∀ number poll, world.HasPoll index handle number poll → poll.phase ≠ .ended := by
  constructor
  · intro active
    have known := World.knows_of_isActive active
    rcases history.isRegister.hasPoll known with ⟨number, poll, hasPoll⟩
    have told := (history.isActive_iff hasPoll).mp active
    refine ⟨(history.isRegister.registered index handle).mpr known, told.1, ?_⟩
    intro other same hasSame
    have equal := hasSame.isPoll
    rw [← history.hasPoll_unique hasPoll hasSame, hasPoll.isPoll, Option.some.injEq] at equal
    exact equal ▸ told.2
  · rintro ⟨registered, notCancelled, goesOn⟩
    rcases history.registered_iff.mp registered with ⟨number, poll, hasPoll⟩
    exact (history.isActive_iff hasPoll).mpr ⟨notCancelled, goesOn number poll hasPoll⟩

/-- At rest a poll waits for the end of its invocation, or for the end of its sleep as long as
it is active, or for nothing at all. -/
theorem awaits (atRest : world.IsAtRest) (hasPoll : world.HasPoll index handle number poll) :
    world.IsRunning poll ∨
      world.IsAsleep number poll ∧ world.isActive index handle = true ∨ poll.phase = .ended := by
  rcases hasPoll with ⟨isPoll, rfl, rfl⟩
  have rests := (World.step?_eq_none_iff isPoll).mp (atRest number)
  have inTime := Reaches.wakesInTime history.reaches isPoll
  simp only [Course.Rests, World.course] at rests
  cases phase : poll.phase with
  | registered =>
      simp only [phase] at rests
  | running invocation finish =>
      simp only [phase] at rests
      exact .inl ⟨invocation, finish, phase, rests⟩
  | sleeping invocation wake =>
      simp only [phase] at rests
      rcases inTime invocation wake phase with ⟨last, isLast, wakes⟩
      exact .inr (.inl ⟨⟨invocation, wake, last, phase, rests.2, isLast, Nat.le_of_eq wakes⟩,
        rests.1⟩)
  | ended => exact .inr (.inr rfl)

end History

/-- A handle is active as long as it has been registered, has not been cancelled since, and
its poll has not ended, in whatever way that may happen. -/
theorem tellsTruth_of_history {policies : List FailurePolicy}
    (history : History (World.start policies) changes world) :
    (∀ commands, (∃ more, History (World.start policies) (changes ++ more) (world.run commands)) ∧
      ((world.run commands).TakesTime → (world.run commands).settle.IsAtRest)) ∧
      TellsTruth changes world := by
  refine ⟨fun commands => ⟨history.reaching (World.reaches_run world commands),
    World.isAtRest_settle⟩, ?_⟩
  constructor
  case hasPoll => exact fun index handle => history.registered_iff
  case hasOnePoll => exact fun hasPoll hasSame => history.hasPoll_unique hasPoll hasSame
  case isActive => exact fun index handle => history.isActive_iff_of_registered
  case inactive =>
    intro index handle number poll hasPoll ended
    exact Bool.eq_false_iff.mpr fun active => ((history.isActive_iff hasPoll).mp active).2 ended
  case goesOn =>
    intro atRest index handle number poll hasPoll active
    rcases history.awaits atRest hasPoll with running | ⟨asleep, _⟩ | ended
    · exact .inl running
    · exact .inr asleep
    · exact absurd ended ((history.isActive_iff hasPoll).mp active).2
  case ends =>
    intro atRest index handle number poll hasPoll cancelled notRunning
    rcases history.awaits atRest hasPoll with running | ⟨_, active⟩ | ended
    · exact absurd running notRunning
    · exact absurd cancelled ((history.isActive_iff hasPoll).mp active).1
    · exact ended

/-- One poll panics, another one is cancelled before it starts, and the third one goes on. -/
theorem tellsTruth_panicked_cancelled :
    let panics : Plan := ⟨30, fun _ => ⟨0, [], .panicked⟩⟩
    let plan : Plan := ⟨100, fun _ => ⟨0, [], .succeeded⟩⟩
    let cancelled := (World.start [.continue]).run [.register 0 panics true,
      .register 0 plan true, .register 0 plan true, .operate (.cancel 0 1)]
    let world := cancelled.settle
    let changes : List Change :=
      [.registered 0 ⟨0⟩, .registered 0 ⟨1⟩, .registered 0 ⟨2⟩, .cancelled 0 ⟨1⟩]
    History (World.start [.continue]) changes world ∧ TellsTruth changes world ∧
      world.IsAtRest ∧ world.isActive 0 ⟨0⟩ = false ∧
      (∃ poll, world.HasPoll 0 ⟨1⟩ 1 poll ∧ poll.phase = .ended) ∧
      ∃ poll, world.HasPoll 0 ⟨2⟩ 2 poll ∧ world.IsAsleep 2 poll := by
  intro panics plan cancelled world changes
  let registered := (((World.start [.continue]).register 0 (.empty .continue) panics).register 0
    ⟨.continue, [true], false⟩ plan).register 0 ⟨.continue, [true, true], false⟩ plan
  have prepared : History (World.start [.continue]) changes cancelled :=
    (((History.start.tail (.register panics rfl)).tail (.register plan rfl)).tail
      (.register plan rfl)).tail (.operate registered (.cancel 0 1))
  -- No callback does anything to a handle, so the polls can take their turns one by one.
  have steps {earlier later : World} (number : Nat) {poll : Poll}
      (history : History (World.start [.continue]) changes earlier)
      (isPoll : earlier.polls[number]? = some poll)
      (quiet : earlier.changes poll.callback = []) (step : earlier.step? number = some later) :
      History (World.start [.continue]) changes later := by
    have further := history.tail (.step isPoll step)
    rwa [quiet, List.append_nil] at further
  have panicked := steps 0 (steps 0 prepared rfl rfl rfl) rfl rfl rfl
  have ended := steps 1 (steps 1 panicked rfl rfl rfl) rfl rfl rfl
  have history : History (World.start [.continue]) changes world := by
    refine steps 2 (steps 2 ended rfl rfl rfl) rfl rfl ?_
    simp only [world, cancelled, plan, panics]
    cbv
  have truth : TellsTruth changes world := (tellsTruth_of_history history).2
  have pollsBefore : cancelled.polls = [⟨0, ⟨0⟩, .continue, panics, .registered⟩,
      ⟨0, ⟨1⟩, .continue, plan, .registered⟩, ⟨0, ⟨2⟩, .continue, plan, .registered⟩] := by
    simp only [cancelled, plan, panics]
    cbv
  have polls : world.polls = [⟨0, ⟨0⟩, .continue, panics, .ended⟩,
      ⟨0, ⟨1⟩, .continue, plan, .ended⟩, ⟨0, ⟨2⟩, .continue, plan, .sleeping 0 100⟩] := by
    simp only [world, cancelled, plan, panics]
    cbv
  have takesTime : cancelled.TakesTime := by
    rw [World.TakesTime, pollsBefore]
    simp only [List.forall_mem_cons]
    exact ⟨fun _ => show 0 < 0 + 30 by decide, fun _ => show 0 < 0 + 100 by decide,
      fun _ => show 0 < 0 + 100 by decide, List.forall_mem_nil _⟩
  have atRest : world.IsAtRest := World.isAtRest_settle takesTime
  have first : world.HasPoll 0 ⟨0⟩ 0 ⟨0, ⟨0⟩, .continue, panics, .ended⟩ :=
    ⟨by rw [polls]; rfl, rfl, rfl⟩
  have second : world.HasPoll 0 ⟨1⟩ 1 ⟨0, ⟨1⟩, .continue, plan, .ended⟩ :=
    ⟨by rw [polls]; rfl, rfl, rfl⟩
  have third : world.HasPoll 0 ⟨2⟩ 2 ⟨0, ⟨2⟩, .continue, plan, .sleeping 0 100⟩ :=
    ⟨by rw [polls]; rfl, rfl, rfl⟩
  have isCancelled : IsCancelled changes 0 ⟨1⟩ := ⟨.cancelled 0 ⟨1⟩, ⟨rfl, rfl⟩, by decide⟩
  have active : world.isActive 0 ⟨2⟩ = true := by
    simp only [world, cancelled, plan, panics]
    cbv
  refine ⟨history, truth, atRest, truth.inactive first rfl, ⟨_, second, ?_⟩, _, third, ?_⟩
  · exact truth.ends atRest second isCancelled (by rintro ⟨_, _, ⟨⟩, _⟩)
  · rcases truth.goesOn atRest third active with ⟨_, _, ⟨⟩, _⟩ | asleep
    exact asleep

end MetricWatch.Polling
