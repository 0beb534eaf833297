import MetricWatch.Proofs.Polling.Incidents
import MetricWatch.Proofs.Polling.Independence
import MetricWatch.Proofs.Polling.Lockstep

namespace MetricWatch.Polling

/-! The ways to close a registry. All of its handles may be cancelled at once, with the
registry or without it, or one after the other, in any order and as often as one likes. -/

inductive Closes (world : World) (index : Nat) : List Operation → Prop
  | cancelAll : Closes world index [.cancelAll index]
  | drop : Closes world index [.drop index]
  | cancel {targets : List Nat} :
      (∀ handle, world.Knows index handle →
        ∃ target ∈ targets, world.handle? target = some handle) →
      Closes world index (targets.map (.cancel index))

namespace World

/-- What the program does by some operations, one after the other. -/
def operateAll (world : World) (operations : List Operation) : World :=
  operations.foldl (fun world operation => (world.operate .program operation).1) world

theorem run_operations (world : World) (operations : List Operation) :
    world.run (operations.map .operate) = world.operateAll operations := by
  rw [run, List.foldl_map]
  rfl

variable {world : World}

theorem spares_operateAll (number : Nat) (world : World) (operations : List Operation) :
    Spares number world (world.operateAll operations) := by
  induction operations generalizing world with
  | nil => exact .refl number world
  | cons operation operations induction =>
      exact (Spares.operate number world .program operation).trans (induction _)

theorem IsTidy.operateAll (tidy : world.IsTidy) (operations : List Operation) :
    (world.operateAll operations).IsTidy := by
  induction operations generalizing world with
  | nil => exact tidy
  | cons operation operations induction => exact induction (tidy.operate .program operation)

theorem isActive_operateAll_iff {poll : Poll} (tidy : world.IsTidy)
    (operations : List Operation) :
    (world.operateAll operations).isActive poll.registry poll.handle = true ↔
      world.isActive poll.registry poll.handle = true ∧
        ∀ operation ∈ operations, ¬ world.Deactivates poll operation :=
  isActive_foldl_iff (fun operation tidy => tidy.operate .program operation)
    (fun operation tidy => isActive_operate_iff tidy .program operation)
    (deactivates_operate .program) tidy operations

theorem offer?_operateAll (world : World) (operations : List Operation) (index : Nat) :
    (world.operateAll operations).offer? index =
      if .drop index ∈ operations then none else world.offer? index := by
  induction operations generalizing world with
  | nil => rfl
  | cons operation operations induction =>
      have unfolded : world.operateAll (operation :: operations) =
          (world.operate .program operation).1.operateAll operations := rfl
      rw [unfolded, induction, offer?_operate]
      by_cases first : operation = .drop index <;> by_cases later : .drop index ∈ operations <;>
        simp [first, later, eq_comm]

end World

namespace Closes

variable {world : World} {index : Nat} {operations others : List Operation} {poll : Poll}

theorem deactivates_iff (closes : Closes world index operations)
    (known : world.Knows poll.registry poll.handle) :
    (∃ operation ∈ operations, world.Deactivates poll operation) ↔ poll.registry = index := by
  cases closes with
  | cancelAll | drop => simp [World.Deactivates, eq_comm]
  | @cancel targets covers =>
      constructor
      · rintro ⟨operation, member, deactivates⟩
        rcases List.mem_map.mp member with ⟨target, _, rfl⟩
        exact deactivates.1.symm
      · rintro rfl
        rcases covers poll.handle known with ⟨target, member, isTarget⟩
        exact ⟨_, List.mem_map_of_mem member, rfl, isTarget⟩

theorem isActive_iff (closes : Closes world index operations) (tidy : world.IsTidy) :
    (world.operateAll operations).isActive poll.registry poll.handle = true ↔
      world.isActive poll.registry poll.handle = true ∧ poll.registry ≠ index := by
  rw [World.isActive_operateAll_iff tidy]
  refine and_congr_right fun active => ?_
  rw [← not_iff_not, not_not, ← closes.deactivates_iff (World.knows_of_isActive active)]
  simp only [not_forall, not_not, exists_prop]

/-- All ways to close a registry lead to the same, as long as nobody asks whether it is still
there. -/
theorem inStep (closes : Closes world index operations) (closesToo : Closes world index others)
    (tidy : world.IsTidy) :
    World.InStep (fun place => place = index → .drop index ∉ operations ∧ .drop index ∉ others)
      (world.operateAll operations) (world.operateAll others) := by
  refine (World.InStep.refl tidy).of_spares
    (fun number => World.spares_operateAll number world operations)
    (fun number => World.spares_operateAll number world others) ?_ ?_
    ⟨tidy.operateAll operations, tidy.operateAll others⟩
  · intro place handle
    let poll : Poll := ⟨place, handle, .continue, ⟨0, fun _ => ⟨0, [], .succeeded⟩⟩, .ended⟩
    have first := @isActive_iff world index operations poll closes tidy
    have second := @isActive_iff world index others poll closesToo tidy
    exact Bool.eq_iff_iff.mpr (second.trans first.symm)
  · intro place keeps
    have spares : ∀ {operations}, Closes world index operations →
        (place = index → .drop index ∉ operations) → .drop place ∉ operations := by
      intro operations closes keeps member
      by_cases same : place = index
      · exact keeps same (same ▸ member)
      · cases closes with
        | cancelAll | drop => simp [same] at member
        | cancel covers => simp at member
    rw [World.offer?_operateAll, World.offer?_operateAll,
      if_neg (spares closes fun same => (keeps same).1),
      if_neg (spares closesToo fun same => (keeps same).2)]

end Closes

namespace Course

variable {timely : Prop} {plan : Plan} {policy : FailurePolicy} {course later : Course}

/-- An inactive poll ends the invocation that it is in, or its first one if it has none. -/
structure Concludes (course later : Course) : Prop where
  inactive : later.isActive = false
  starts : later.starts = course.starts ∨
    course.phase = .registered ∧ ∃ time, later.starts = [time]
  finishes : later.finishes = course.finishes ∨
    (course.phase = .registered ∨ ∃ invocation finish, course.phase = .running invocation finish) ∧
      ∃ last, later.finishes = course.finishes ++ [last]

theorem Unfolds.concludes (unfolds : Unfolds timely plan policy course later)
    (counts : course.Counts) (inactive : course.isActive = false) : course.Concludes later := by
  have ⟨inactiveLater, noMore⟩ := unfolds.startsNoMore counts inactive
  have countsLater : later.Counts := unfolds.keeps (fun counts => counts.proceeds) counts
  have fewer := countsLater.length_finishes.1
  rcases finishes_of_unfolds unfolds with ⟨more, finishes⟩
  constructor
  case inactive => exact inactiveLater
  case starts =>
    rcases noMore with same | ⟨none, one⟩
    · exact .inl same
    · refine .inr ⟨?_, one⟩
      exact Classical.byContradiction fun begun => counts.starts_ne_nil begun none
  case finishes =>
    have started : later.starts.length = course.starts.length ∨
        course.starts.length = 0 ∧ later.starts.length = 1 := by
      rcases noMore with same | ⟨none, time, one⟩
      · exact .inl (congrArg List.length same)
      · exact .inr ⟨congrArg List.length none, congrArg List.length one⟩
    rw [← finishes, List.length_append] at fewer
    match more with
    | [] => exact .inl (finishes.symm.trans (List.append_nil _))
    | [last] =>
        refine .inr ⟨?_, last, finishes.symm⟩
        unfold Counts at counts
        cases phase : course.phase with
        | registered => exact .inl rfl
        | running invocation finish => exact .inr ⟨invocation, finish, rfl⟩
        | sleeping invocation wake =>
            simp only [phase, List.length_singleton] at counts fewer
            omega
        | ended =>
            simp only [phase, List.length_singleton] at counts fewer
            have begun := List.length_pos_iff.mpr counts.2.1
            omega
    | _ :: _ :: more =>
        have almost := counts.length_finishes.2
        simp only [List.length_cons] at fewer
        omega

end Course

/-! What is said of the other registries, and of polls that are registered later: they may
be told apart from those in other runs only by what befalls them. -/

/-- A poll is at the same in two worlds. -/
structure SameIn (number : Nat) (poll : Poll) (first second : World) : Prop where
  phase? : second.phase? number = first.phase? number
  starts : second.starts number = first.starts number
  finishes : second.finishes number = first.finishes number
  isActive : second.isActive poll.registry poll.handle = first.isActive poll.registry poll.handle

/-- Where the same befalls a poll, it does the same. -/
theorem sameIn_of_undergoes {policies others : List FailurePolicy} {number : Nat} {poll : Poll}
    {first second later laterToo : World} {incidents : List Incident}
    (reached : Reaches (World.start policies) first)
    (reachedToo : Reaches (World.start others) second)
    (isPoll : first.polls[number]? = some poll) (isPollToo : second.polls[number]? = some poll)
    (course : second.course number poll = first.course number poll)
    (undergoes : Undergoes number first incidents later)
    (undergoesToo : Undergoes number second incidents laterToo) :
    SameIn number poll later laterToo := by
  rcases undergoes.course reached isPoll with ⟨phase, isPollLater, courseLater⟩
  rcases undergoesToo.course reachedToo isPollToo with ⟨phaseToo, isPollLaterToo, courseToo⟩
  have same := courseToo.trans ((congrArg (Course.meetAll poll.plan poll.policy · incidents)
    course).trans courseLater.symm)
  constructor
  case phase? =>
    simp only [World.phase?, isPollLater, isPollLaterToo, Option.map_some]
    exact congrArg (some ·.phase) same
  case starts => exact congrArg Course.starts same
  case finishes => exact congrArg Course.finishes same
  case isActive => exact congrArg Course.isActive same

theorem Course.FollowsPlan.finishes_eq {plan : Plan} {first second : Course}
    (follows : first.FollowsPlan plan) (followsToo : second.FollowsPlan plan)
    (times : second.finishes.map Finish.time = first.finishes.map Finish.time) :
    second.finishes = first.finishes := by
  refine List.ext_getElem? fun invocation => ?_
  have time := congrArg (·[invocation]?) times
  simp only [List.getElem?_map] at time
  cases isFinish : first.finishes[invocation]? with
  | none => simpa [isFinish] using time
  | some finish =>
      rw [isFinish, Option.map_some] at time
      rcases Option.map_eq_some_iff.mp time with ⟨finishToo, isFinishToo, sameTime⟩
      have outcome := (followsToo invocation finishToo isFinishToo).trans
        (follows invocation finish isFinish).symm
      rw [isFinishToo]
      cases finish
      cases finishToo
      cases outcome
      cases sameTime
      rfl

/-- In worlds that are in step the polls are at the same that both have had from the start. -/
theorem World.InStep.sameIn {policies : List FailurePolicy} {IsOpen : Nat → Prop}
    {world first second : World} {number : Nat} {poll : Poll}
    (inStep : InStep IsOpen first second) (reached : Reaches (start policies) world)
    (continued : Reaches world first) (continuedToo : Reaches world second)
    (isPoll : world.polls[number]? = some poll) : SameIn number poll first second := by
  have known := Reaches.knows reached isPoll
  rcases continued.unfolds isPoll known with ⟨phase, isPollFirst, _⟩
  rcases continuedToo.unfolds isPoll known with ⟨phaseToo, isPollSecond, _⟩
  constructor
  case phase? =>
    have like := inStep.polls number
    rw [isPollFirst, isPollSecond] at like
    rw [World.phase?, World.phase?, isPollFirst, isPollSecond]
    cases like with
    | some like => exact congrArg some like.phase
  case starts => exact inStep.starts number
  case finishes =>
    have follows := Reaches.followsPlan (reached.trans continued) isPollFirst
    have followsToo := Reaches.followsPlan (reached.trans continuedToo) isPollSecond
    exact follows.finishes_eq followsToo (inStep.finishTimes number)
  case isActive => exact inStep.isActive poll.registry poll.handle

section Closing

variable {policies : List FailurePolicy} {world : World} {index : Nat}
  {operations others : List Operation}

theorem reaches_operateAll (world : World) (operations : List Operation) :
    Reaches world (world.operateAll operations) := by
  rw [← World.run_operations]
  exact World.reaches_run world _

/-- The future of polls that have been registered before, and of all handles. A registry that
has been dropped takes no polls, and nothing is said of it then. -/
structure SameFuture (world : World) (index : Nat) (operations others : List Operation) : Prop
    where
  polls : ∀ commands,
    (∀ plan canRun, .register index plan canRun ∈ commands →
      .drop index ∉ operations ∧ .drop index ∉ others) →
    ∀ {number poll}, world.polls[number]? = some poll →
      SameIn number poll ((world.operateAll operations).run commands)
        ((world.operateAll others).run commands)
  isActive : ∀ commands,
    (∀ plan canRun, .register index plan canRun ∈ commands →
      .drop index ∉ operations ∧ .drop index ∉ others) →
    ∀ place handle, ((world.operateAll others).run commands).isActive place handle =
      ((world.operateAll operations).run commands).isActive place handle

theorem Closes.inStep_run (closes : Closes world index operations)
    (closesToo : Closes world index others) (reached : Reaches (World.start policies) world)
    {commands : List Command}
    (keeps : ∀ plan canRun, .register index plan canRun ∈ commands →
      .drop index ∉ operations ∧ .drop index ∉ others) :
    World.InStep (fun place => place = index → .drop index ∉ operations ∧ .drop index ∉ others)
      ((world.operateAll operations).run commands) ((world.operateAll others).run commands) := by
  have inStep := closes.inStep closesToo (Reaches.isTidy reached)
  refine inStep.run (reached.trans (reaches_operateAll world operations)) ?_
  refine List.forall₂_same.mpr fun command member => ?_
  cases command with
  | register place plan canRun =>
      exact .register canRun (fun same => keeps plan canRun (same ▸ member))
        fun policy _ => .refl policy plan
  | operate operation => exact .operate operation
  | advance duration => exact .advance duration
  | settle => exact .settle

theorem Closes.sameFuture (closes : Closes world index operations)
    (closesToo : Closes world index others) (reached : Reaches (World.start policies) world) :
    SameFuture world index operations others := by
  constructor
  case polls =>
    intro commands keeps number poll isPoll
    exact (closes.inStep_run closesToo reached keeps).sameIn reached
      ((reaches_operateAll world operations).trans (World.reaches_run _ commands))
      ((reaches_operateAll world others).trans (World.reaches_run _ commands)) isPoll
  case isActive =>
    intro commands keeps
    exact (closes.inStep_run closesToo reached keeps).isActive

theorem Closes.course_eq (closes : Closes world index operations) (tidy : world.IsTidy)
    (number : Nat) (poll : Poll) :
    (world.operateAll operations).course number poll =
      { world.course number poll with
        isActive := world.isActive poll.registry poll.handle && poll.registry != index } := by
  rw [World.course_of_spares (World.spares_operateAll number world operations)]
  have flag : (world.operateAll operations).isActive poll.registry poll.handle =
      (world.isActive poll.registry poll.handle && poll.registry != index) := by
    rw [Bool.eq_iff_iff, closes.isActive_iff tidy]
    simp
  rw [flag]

theorem Closes.concludes (closes : Closes world index operations)
    (reached : Reaches (World.start policies) world) {later : World}
    (continued : Reaches (world.operateAll operations) later) {number : Nat} {poll : Poll}
    (isPoll : world.polls[number]? = some poll) (mine : poll.registry = index) :
    ∃ phase, later.polls[number]? = some { poll with phase } ∧
      (world.course number poll).Concludes (later.course number { poll with phase }) := by
  have course := closes.course_eq (Reaches.isTidy reached) number poll
  have reachedClosed := reached.trans (reaches_operateAll world operations)
  have isPollClosed : (world.operateAll operations).polls[number]? = some poll :=
    (World.spares_operateAll number world operations).poll.trans isPoll
  rcases continued.unfolds isPollClosed (Reaches.knows reachedClosed isPollClosed) with
    ⟨phase, isPollLater, unfolds⟩
  have concludes := unfolds.concludes (Reaches.counts reachedClosed isPollClosed) (by
    rw [course]
    simp [mine])
  rw [course] at concludes
  exact ⟨phase, isPollLater, concludes.inactive, concludes.starts, concludes.finishes⟩

/-- Operations that do not mean a poll are nothing to it. -/
theorem Undergoes.operateAll {first : World} {incidents : List Incident} {number : Nat}
    {poll : Poll} (undergoes : Undergoes number first incidents world)
    (isPoll : world.polls[number]? = some poll)
    (spared : ∀ operation ∈ operations, ¬ world.Deactivates poll operation) :
    Undergoes number first incidents (world.operateAll operations) := by
  induction operations generalizing world with
  | nil => exact undergoes
  | cons operation operations induction =>
      rcases List.forall_mem_cons.mp spared with ⟨sparedFirst, sparedLater⟩
      have nothing : world.cancellations number [operation] = [] := by
        simp [World.cancellations, isPoll, sparedFirst]
      have operated := undergoes.tail (.operate world operation)
      rw [nothing, List.map_nil, List.append_nil] at operated
      refine induction operated ((World.Spares.operate number world _ _).poll.trans isPoll) ?_
      simpa only [World.deactivates_operate] using sparedLater

theorem Closes.spares (closes : Closes world index operations) {number : Nat} {poll : Poll}
    (isPoll : world.polls[number]? = some poll) (other : poll.registry ≠ index) :
    Undergoes number world [] (world.operateAll operations) := by
  refine Undergoes.start.operateAll isPoll fun operation member deactivates => ?_
  cases closes with
  | cancelAll | drop =>
      cases List.mem_singleton.mp member
      exact other deactivates.symm
  | cancel covers =>
      rcases List.mem_map.mp member with ⟨target, _, rfl⟩
      exact other deactivates.1.symm

theorem Closes.sameIn (closes : Closes world index operations)
    (reached : Reaches (World.start policies) world) {number : Nat} {poll : Poll}
    (isPoll : world.polls[number]? = some poll) (other : poll.registry ≠ index)
    {later laterToo : World} {incidents : List Incident}
    (undergoes : Undergoes number world incidents later)
    (undergoesToo : Undergoes number (world.operateAll operations) incidents laterToo) :
    SameIn number poll later laterToo := by
  have course : (world.operateAll operations).course number poll = world.course number poll := by
    rw [closes.course_eq (Reaches.isTidy reached), bne_iff_ne.mpr other, Bool.and_true]
    rfl
  exact sameIn_of_undergoes reached (reached.trans (reaches_operateAll world operations)) isPoll
    ((World.spares_operateAll number world operations).poll.trans isPoll) course undergoes
    undergoesToo

end Closing

/-! Polls that are registered after all others have been cancelled. -/

section Anew

variable {policies : List FailurePolicy} {world : World} {index : Nat} {registry : Registry}

def World.cancelledAll (world : World) (index : Nat) : World :=
  (world.operate .program (.cancelAll index)).1

theorem cancelledAll_eq (available : world.registry? index = some registry) :
    world.cancelledAll index = world.setRegistry index registry.cancelAll := by
  simp only [World.cancelledAll, World.operate, available]

theorem registry?_cancelledAll (available : world.registry? index = some registry) :
    World.registry? (world.cancelledAll index) index = some registry.cancelAll := by
  have kept : registry.isDropped = false := World.isDropped_of_available available
  have keptToo : registry.cancelAll.isDropped = false := kept
  rw [cancelledAll_eq available]
  simp only [World.registry?,
    World.registries_setRegistry (World.getElem?_of_available available), if_true, keptToo,
    Bool.false_eq_true, if_false]

/-- A poll that is registered after all others have been cancelled, compared with the same
poll if they have not been: it is active, and the same befalls it by what it does in a run in
which the same befalls it, and in any run by the time when it is cancelled at the same times. -/
structure RegistersAnew (world : World) (index : Nat) (registry : Registry) (plan : Plan) : Prop
    where
  registers : (world.cancelledAll index).perform (.register index plan true) =
    ((world.cancelledAll index).register index registry.cancelAll plan,
      .registered registry.nextHandle)
  isActive : ((world.cancelledAll index).register index registry.cancelAll plan).isActive index
    registry.nextHandle = true
  sameIn : ∀ {incidents later laterToo},
    Undergoes world.polls.length (world.register index registry plan) incidents later →
    Undergoes world.polls.length
      ((world.cancelledAll index).register index registry.cancelAll plan) incidents laterToo →
    SameIn world.polls.length ⟨index, registry.nextHandle, registry.policy, plan, .registered⟩
      later laterToo
  agree : ∀ {first second : Life}, first.before = world → first.index = index →
    second.before = world.cancelledAll index → second.index = index →
    second.plan = first.plan → second.cancellations = first.cancellations →
    second.moment.now = first.moment.now → Agree first second

theorem nextHandle_cancelAll (registry : Registry) :
    registry.cancelAll.nextHandle = registry.nextHandle :=
  congrArg Handle.mk registry.size_cancelAll

theorem treatAlike_of_cancelledAll {first second : Life}
    (before : second.before = first.before.cancelledAll first.index)
    (index : second.index = first.index) (plan : second.plan = first.plan)
    (cancellations : second.cancellations = first.cancellations)
    (now : second.moment.now = first.moment.now) : TreatAlike first second := by
  have registry : second.registry = first.registry.cancelAll := by
    have availableToo := second.available
    rw [before, index, registry?_cancelledAll first.available] at availableToo
    exact (Option.some.inj availableToo).symm
  have spared := World.Spares.operate 0 first.before .program (.cancelAll first.index)
  have number : second.number = first.number := by
    rw [Registration.number, before, World.cancelledAll, World.polls_operate]
    rfl
  refine ⟨?_, fun time => by rw [cancellations], now.symm⟩
  constructor
  case interval | duration | outcome => simp [Registration.script, plan]
  case policy =>
    simp only [Registration.script, registry]
    rfl
  case registered =>
    simp only [Registration.script, before]
    exact spared.now.symm
  case cancelsItself => simp [Registration.script, plan, index, number]

theorem registersAnew (reached : Reaches (World.start policies) world)
    (available : world.registry? index = some registry) (plan : Plan) :
    RegistersAnew world index registry plan := by
  have availableToo := registry?_cancelledAll available
  have present := World.getElem?_of_available availableToo
  have reachedToo : Reaches (World.start policies) (world.cancelledAll index) :=
    reached.tail (.operate world (.cancelAll index))
  have handle := nextHandle_cancelAll registry
  constructor
  case registers =>
    simp only [World.perform, availableToo, if_true, handle]
  case isActive =>
    rw [← handle]
    exact World.isActive_register_nextHandle plan present
  case sameIn =>
    intro incidents later laterToo undergoes undergoesToo
    have spared := World.Spares.operate 0 world .program (.cancelAll index)
    have polls : (world.cancelledAll index).polls = world.polls := World.polls_operate world _ _
    let poll : Poll := ⟨index, registry.nextHandle, registry.policy, plan, .registered⟩
    have isPoll : (world.register index registry plan).polls[world.polls.length]? = some poll :=
      List.getElem?_concat_length
    have isPollToo : ((world.cancelledAll index).register index registry.cancelAll
        plan).polls[world.polls.length]? = some poll := by
      change ((world.cancelledAll index).polls ++ [⟨index, registry.cancelAll.nextHandle,
        registry.policy, plan, .registered⟩])[world.polls.length]? = some poll
      rw [polls, handle]
      exact List.getElem?_concat_length
    have course := World.course_registered reached plan available
    have courseToo := World.course_registered reachedToo plan availableToo
    rw [polls, handle] at courseToo
    exact sameIn_of_undergoes (reached.tail (.register plan available))
      (reachedToo.tail (.register plan availableToo)) isPoll isPollToo
      (courseToo.trans (course.symm ▸ congrArg Course.registered spared.now)) undergoes undergoesToo
  case agree =>
    rintro first second rfl rfl before index plan cancellations now
    have alike := treatAlike_of_cancelledAll before index plan cancellations now
    exact ⟨alike.starts_eq, alike.finishes_eq, alike.isActive_eq⟩

end Anew

/-- What becomes of all polls when a registry is closed in one way or another. -/
structure ClosesAlike (world : World) (index : Nat) (operations others : List Operation) : Prop
    where
  sameFuture : SameFuture world index operations others
  concludes : ∀ {number poll later}, world.polls[number]? = some poll → poll.registry = index →
    Reaches (world.operateAll operations) later →
      ∃ phase, later.polls[number]? = some { poll with phase } ∧
        (world.course number poll).Concludes (later.course number { poll with phase })
  spares : ∀ {number poll}, world.polls[number]? = some poll → poll.registry ≠ index →
    Undergoes number world [] (world.operateAll operations) ∧
      ∀ {incidents later laterToo}, Undergoes number world incidents later →
        Undergoes number (world.operateAll operations) incidents laterToo →
          SameIn number poll later laterToo
  registersAnew : ∀ {registry}, world.registry? index = some registry → ∀ plan,
    RegistersAnew world index registry plan

/-- Cancelling all handles of a registry at once, dropping it, and cancelling its handles one
by one all lead to the same. Its polls only conclude what they are in, those of other
registries go on, and later ones are not concerned. -/
theorem closesAlike_of_closes {policies : List FailurePolicy} {world : World} {index : Nat}
    {operations others : List Operation} (reached : Reaches (World.start policies) world)
    (closes : Closes world index operations) (closesToo : Closes world index others) :
    (∀ commands, Reaches world (world.run commands)) ∧
      ClosesAlike world index operations others := by
  refine ⟨World.reaches_run world, ?_⟩
  constructor
  case sameFuture => exact closes.sameFuture closesToo reached
  case concludes =>
    exact fun isPoll mine continued => closes.concludes reached continued isPoll mine
  case spares =>
    intro number poll isPoll other
    exact ⟨closes.spares isPoll other, closes.sameIn reached isPoll other⟩
  case registersAnew => exact fun available plan => registersAnew reached available plan

/-- Two polls of one registry, one of them in its first invocation and the other before it,
that are cancelled in the other order, and a poll of another registry. -/
theorem closesAlike_in_other_order :
    let plan : Plan := ⟨100, fun _ => ⟨50, [], .succeeded⟩⟩
    let world := (World.start [.continue, .stop]).run [.register 0 plan true, .settle,
      .register 0 plan true, .register 1 plan true]
    Reaches (World.start [.continue, .stop]) world ∧
      Closes world 0 [.cancelAll 0] ∧ Closes world 0 [.cancel 0 1, .cancel 0 0, .cancel 0 1] ∧
      ClosesAlike world 0 [.cancelAll 0] [.cancel 0 1, .cancel 0 0, .cancel 0 1] := by
  intro plan world
  have reached : Reaches (World.start [.continue, .stop]) world := World.reaches_run _ _
  have present : world.registries[0]? = some ⟨.continue, [true, true], false⟩ := rfl
  have first : world.handle? 0 = some ⟨0⟩ := rfl
  have second : world.handle? 1 = some ⟨1⟩ := rfl
  have closes : Closes world 0 ([1, 0, 1].map (.cancel 0)) := by
    clear_value world
    refine .cancel ?_
    rintro handle ⟨registry, isPresent, below⟩
    rw [present, Option.some.injEq] at isPresent
    subst isPresent
    match handle, below with
    | ⟨0⟩, _ => exact ⟨0, by decide, first⟩
    | ⟨1⟩, _ => exact ⟨1, by decide, second⟩
  exact ⟨reached, .cancelAll, closes, (closesAlike_of_closes reached .cancelAll closes).2⟩

end MetricWatch.Polling
