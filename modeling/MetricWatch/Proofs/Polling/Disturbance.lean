import MetricWatch.Proofs.Polling.Flag

namespace MetricWatch.Polling

/-! What others do to a poll. Nothing that happens around a poll reaches it, but for time
and for the operations that mean it; so the moves of a run are told apart by the times at
which others cancel the poll in them. -/

namespace World

/-- The times at which operations of others cancel a poll, all of them at this moment. -/
def cancellations (world : World) (number : Nat) (operations : List Operation) : List Nat :=
  match world.polls[number]? with
  | none => []
  | some poll =>
      (operations.filter fun operation => world.Deactivates poll operation).map fun _ => world.now

end World

inductive MovesCancelling (number : Nat) : World → List Nat → World → Prop
  | own {world next : World} :
      world.step? number = some next → MovesCancelling number world [] next
  | step {world next : World} {other : Nat} {poll : Poll} :
      other ≠ number → world.polls[other]? = some poll → world.step? other = some next →
      MovesCancelling number world (world.cancellations number poll.callback) next
  | operate (world : World) (operation : Operation) :
      MovesCancelling number world (world.cancellations number [operation])
        (world.operate .program operation).1
  | register {world : World} {index : Nat} {registry : Registry} (plan : Plan) :
      world.registry? index = some registry →
      MovesCancelling number world [] (world.register index registry plan)
  | pass {world : World} (duration : Nat) :
      world.Allows duration →
      MovesCancelling number world [] { world with now := world.now + duration }

inductive ReachesCancelling (number : Nat) (first : World) : List Nat → World → Prop
  | start : ReachesCancelling number first [] first
  | tail {times more : List Nat} {world next : World} :
      ReachesCancelling number first times world → MovesCancelling number world more next →
      ReachesCancelling number first (times ++ more) next

variable {number : Nat} {first world next : World} {times : List Nat}

theorem MovesCancelling.moves (move : MovesCancelling number world times next) :
    Moves world next := by
  cases move with
  | own step => exact .step number step
  | step different isActing step => exact .step _ step
  | operate operation => exact .operate world operation
  | register plan available => exact .register plan available
  | pass duration allowed => exact .pass duration allowed

theorem ReachesCancelling.reaches (reached : ReachesCancelling number first times world) :
    Reaches first world := by
  induction reached with
  | start => exact .refl
  | tail _ move induction => exact induction.tail move.moves

theorem Moves.cancelling (move : Moves world next) (number : Nat) :
    ∃ times, MovesCancelling number world times next := by
  cases move with
  | step other step =>
      by_cases same : other = number
      · subst same
        exact ⟨_, .own step⟩
      · cases isPoll : world.polls[other]? with
        | none => simp [World.step?, isPoll] at step
        | some poll => exact ⟨_, .step same isPoll step⟩
  | operate operation => exact ⟨_, .operate world operation⟩
  | register plan available => exact ⟨_, .register plan available⟩
  | pass duration allowed => exact ⟨_, .pass duration allowed⟩

/-- Whatever happens, it cancels a poll at some times or never. -/
theorem Reaches.cancelling (reached : Reaches first world) (number : Nat) :
    ∃ times, ReachesCancelling number first times world := by
  induction reached with
  | refl => exact ⟨_, .start⟩
  | tail _ move induction =>
      rcases induction with ⟨times, earlier⟩
      rcases move.cancelling number with ⟨more, last⟩
      exact ⟨times ++ more, earlier.tail last⟩

/-- The steps of a poll are no cancellations by others. -/
theorem ReachesCancelling.runPoll (reached : ReachesCancelling number first times world)
    (limit : Nat) : ReachesCancelling number first times (world.runPoll limit number) := by
  induction limit generalizing world with
  | zero => exact reached
  | succ limit induction =>
      simp only [World.runPoll]
      split
      · exact reached
      · rename_i next step
        have continued := reached.tail (.own step)
        rw [List.append_nil] at continued
        exact induction continued

namespace Course

/-- One move, as a poll sees it: others cancel it, they do nothing to it, time passes, or
it takes a step, in which its own callback may cancel it too. -/
inductive Answers (plan : Plan) (policy : FailurePolicy) (CancelsItself : Nat → Prop) :
    Course → List Nat → Course → Prop
  | idle (course : Course) : Answers plan policy CancelsItself course [] course
  | cancelled (course : Course) {times : List Nat} :
      times ≠ [] → (∀ time ∈ times, time = course.now) →
      Answers plan policy CancelsItself course times { course with isActive := false }
  | wait (course : Course) (duration : Nat) :
      Answers plan policy CancelsItself course [] { course with now := course.now + duration }
  | step {course next : Course} {isActive : Bool} :
      (isActive = true ↔ course.isActive = true ∧
        ∀ invocation finish, course.phase = .running invocation finish →
          ¬ CancelsItself invocation) →
      { course with isActive }.step? plan policy = some next →
      Answers plan policy CancelsItself course [] next

end Course

namespace Course

/-- What is left of a course when others have cancelled the poll at some times or never. -/
def disturbed (course : Course) (times : List Nat) : Course :=
  if times = [] then course else { course with isActive := false }

theorem answers_disturbed {plan : Plan} {policy : FailurePolicy} {CancelsItself : Nat → Prop}
    {course : Course} (now : ∀ time ∈ times, time = course.now) :
    Answers plan policy CancelsItself course times (course.disturbed times) := by
  unfold disturbed
  split
  · rename_i none
    rw [none]
    exact .idle course
  · rename_i some
    exact .cancelled course some now

end Course

namespace World

theorem eq_now_of_mem_cancellations {operations : List Operation} {time : Nat}
    (member : time ∈ world.cancellations number operations) : time = world.now := by
  unfold cancellations at member
  split at member
  · cases member
  · rcases List.mem_map.mp member with ⟨_, _, rfl⟩
    rfl

variable {poll : Poll} (isPoll : world.polls[number]? = some poll)

include isPoll

/-- Operations of others take the flag of a poll away, or they do nothing to it. -/
theorem course_disturbed {operations : List Operation} (spared : Spares number world next)
    (flag : next.isActive poll.registry poll.handle = true ↔
      world.isActive poll.registry poll.handle = true ∧
        ∀ operation ∈ operations, ¬ world.Deactivates poll operation) :
    next.course number poll =
      (world.course number poll).disturbed (world.cancellations number operations) := by
  rw [course_of_spares spared]
  simp only [Course.disturbed, cancellations, isPoll, List.map_eq_nil_iff,
    List.filter_eq_nil_iff, decide_eq_true_eq]
  split
  · rename_i spares
    have same : next.isActive poll.registry poll.handle =
        world.isActive poll.registry poll.handle := by
      rw [Bool.eq_iff_iff, flag]
      exact ⟨And.left, fun active => ⟨active, spares⟩⟩
    rw [same]
    rfl
  · rename_i taken
    have inactive : next.isActive poll.registry poll.handle = false := by
      rw [Bool.eq_false_iff]
      exact fun active => taken (flag.mp active).2
    rw [inactive]

theorem course_operate (tidy : world.IsTidy) (source : Source) (operation : Operation) :
    (world.operate source operation).1.course number poll =
      (world.course number poll).disturbed (world.cancellations number [operation]) := by
  refine course_disturbed isPoll (Spares.operate number world source operation) ?_
  rw [isActive_operate_iff tidy]
  simp

theorem course_of_step_of_ne {policies : List FailurePolicy} {other : Nat} {acting : Poll}
    (reached : Reaches (start policies) world) (different : other ≠ number)
    (isActing : world.polls[other]? = some acting) (step : world.step? other = some next) :
    next.course number poll =
      (world.course number poll).disturbed (world.cancellations number acting.callback) := by
  have flag := isActive_of_step_of_other reached different isPoll isActing step
  exact course_disturbed isPoll (spares_of_step different step) flag

end World

theorem MovesCancelling.answers {poll : Poll} {CancelsItself : Nat → Prop}
    {policies : List FailurePolicy}
    (move : MovesCancelling number world times next)
    (reached : Reaches (World.start policies) world)
    (isPoll : world.polls[number]? = some poll)
    (own : ∀ invocation, CancelsItself invocation ↔
      ∃ operation ∈ (poll.plan.call invocation).operations, world.Deactivates poll operation) :
    ∃ phase, next.polls[number]? = some { poll with phase } ∧
      Course.Answers poll.plan poll.policy CancelsItself (world.course number poll) times
        (next.course number { poll with phase }) := by
  have tidy := Reaches.isTidy reached
  cases move with
  | own step =>
      rcases World.course_of_step isPoll step with ⟨phase, isPollNext, stepped⟩
      refine ⟨phase, isPollNext, .step ?_ stepped⟩
      rw [World.isActiveAfter_iff tidy]
      refine and_congr_right fun _ => ?_
      cases running : poll.phase with
      | running invocation finish =>
          simp [Poll.callback, World.course, running, own]
      | registered | sleeping _ _ | ended => simp [Poll.callback, World.course, running]
  | step different isActing step =>
      have spared := World.spares_of_step different step
      have disturbed := World.course_of_step_of_ne isPoll reached different isActing step
      refine ⟨poll.phase, spared.poll.trans isPoll, ?_⟩
      exact disturbed ▸ Course.answers_disturbed fun _ => World.eq_now_of_mem_cancellations
  | operate operation =>
      have spared := World.Spares.operate number world .program operation
      have disturbed := World.course_operate isPoll tidy .program operation
      refine ⟨poll.phase, spared.poll.trans isPoll, ?_⟩
      exact disturbed ▸ Course.answers_disturbed fun _ => World.eq_now_of_mem_cancellations
  | @register index registry plan available =>
      have present := World.getElem?_of_available available
      have known := Reaches.knows reached isPoll
      refine ⟨poll.phase, World.getElem?_register plan isPoll, ?_⟩
      rw [World.course_register plan present known]
      exact .idle _
  | pass duration allowed => exact ⟨poll.phase, isPoll, .wait (world.course number poll) duration⟩

end MetricWatch.Polling
