import MetricWatch.Proofs.Polling.Disturbance

namespace MetricWatch.Polling

/-! What befalls a poll. Of all that happens around it a poll notices three things: its turn
comes, others cancel it, and time passes. Its course follows from these, one after the other,
so that runs in which the same befalls a poll are the same to it, whatever else they are. -/

/-- In its turn a poll does what it is ready for; a callback that ends in it may have taken
the flag of its own poll. -/
inductive Incident where
  | turn (keepsFlag : Bool)
  | cancelled
  | passed (duration : Nat)
deriving DecidableEq

namespace Course

def afterCallback (course : Course) (keepsFlag : Bool) : Course :=
  match course.phase with
  | .running _ _ => { course with isActive := course.isActive && keepsFlag }
  | .registered | .sleeping _ _ | .ended => course

/-- A turn in which there is nothing to do changes nothing. -/
def meet (plan : Plan) (policy : FailurePolicy) (course : Course) : Incident → Course
  | .turn keepsFlag => ((course.afterCallback keepsFlag).step? plan policy).getD course
  | .cancelled => { course with isActive := false }
  | .passed duration => { course with now := course.now + duration }

def meetAll (plan : Plan) (policy : FailurePolicy) (course : Course)
    (incidents : List Incident) : Course :=
  incidents.foldl (meet plan policy) course

variable {plan : Plan} {policy : FailurePolicy} {course : Course}

theorem meetAll_append (first second : List Incident) :
    course.meetAll plan policy (first ++ second) =
      (course.meetAll plan policy first).meetAll plan policy second :=
  List.foldl_append

theorem meetAll_cancelled (times : List Nat) :
    course.meetAll plan policy (times.map fun _ => .cancelled) = course.disturbed times := by
  have again : ∀ times : List Nat, { course with isActive := false }.meetAll plan policy
      (times.map fun _ => .cancelled) = { course with isActive := false } := by
    intro times
    induction times with
    | nil => rfl
    | cons _ _ induction => exact induction
  cases times with
  | nil => rfl
  | cons time times => exact again times

theorem afterCallback_eq (course : Course) (keepsFlag : Bool) :
    course.afterCallback keepsFlag =
      { course with isActive := (course.afterCallback keepsFlag).isActive } := by
  unfold afterCallback
  split <;> rfl

theorem Rests.meet_turn (rests : course.Rests) (keepsFlag : Bool) :
    course.meet plan policy (.turn keepsFlag) = course := by
  cases phase : course.phase with
  | registered => simp [Rests, phase] at rests
  | running invocation finish =>
      simp only [Rests, phase] at rests
      simp [meet, afterCallback, step?, phase, Nat.not_le.mpr rests]
  | sleeping invocation wake =>
      simp only [Rests, phase] at rests
      simp [meet, afterCallback, step?, phase, rests.1, Nat.not_le.mpr rests.2]
  | ended => simp [meet, afterCallback, step?, phase]

/-- Whatever an incident does to a course, it proceeds by it. -/
theorem unfolds_meet (incident : Incident) :
    Unfolds False plan policy course (course.meet plan policy incident) := by
  cases incident with
  | cancelled => exact .single (.deactivate course)
  | passed duration => exact .single (.wait course duration False.elim)
  | turn keepsFlag =>
      simp only [meet]
      cases step : (course.afterCallback keepsFlag).step? plan policy with
      | none => exact .refl
      | some next =>
          have fades : (course.afterCallback keepsFlag).isActive → course.isActive := by
            unfold afterCallback
            split
            · exact fun active => (Bool.and_eq_true_iff.mp active).1
            all_goals exact id
          have faded := World.unfolds_of_fading False plan policy fades
          rw [← afterCallback_eq] at faded
          exact faded.tail (.step step)

theorem unfolds_meetAll (incidents : List Incident) :
    Unfolds False plan policy course (course.meetAll plan policy incidents) := by
  induction incidents generalizing course with
  | nil => exact .refl
  | cons incident incidents induction =>
      have rest : Unfolds False plan policy (course.meet plan policy incident)
          (course.meetAll plan policy (incident :: incidents)) := induction
      exact (unfolds_meet incident).trans rest

theorem Counts.meetAll (counts : course.Counts) (incidents : List Incident) :
    (course.meetAll plan policy incidents).Counts :=
  (unfolds_meetAll incidents).keeps (fun counts proceeds => counts.proceeds proceeds) counts

end Course

/-- A callback leaves the flag of its poll alone if none of its operations means it. -/
def World.keepsFlag (world : World) (poll : Poll) : Bool :=
  poll.callback.all fun operation => !decide (world.Deactivates poll operation)

/-- One move of a run, and what befalls a poll by it. Turns that come while a poll has nothing
to do may be left out or not. -/
inductive Befalls (number : Nat) : World → List Incident → World → Prop
  | turn {world next : World} {poll : Poll} :
      world.polls[number]? = some poll → world.step? number = some next →
      Befalls number world [.turn (world.keepsFlag poll)] next
  | idle {world : World} (keepsFlag : Bool) :
      world.step? number = none → Befalls number world [.turn keepsFlag] world
  | step {world next : World} {other : Nat} {acting : Poll} :
      other ≠ number → world.polls[other]? = some acting → world.step? other = some next →
      Befalls number world
        ((world.cancellations number acting.callback).map fun _ => .cancelled) next
  | operate (world : World) (operation : Operation) :
      Befalls number world ((world.cancellations number [operation]).map fun _ => .cancelled)
        (world.operate .program operation).1
  | register {world : World} {index : Nat} {registry : Registry} (plan : Plan) :
      world.registry? index = some registry →
      Befalls number world [] (world.register index registry plan)
  | pass {world : World} (duration : Nat) :
      world.Allows duration →
      Befalls number world [.passed duration] { world with now := world.now + duration }

inductive Undergoes (number : Nat) (first : World) : List Incident → World → Prop
  | start : Undergoes number first [] first
  | tail {incidents more : List Incident} {world next : World} :
      Undergoes number first incidents world → Befalls number world more next →
      Undergoes number first (incidents ++ more) next

variable {number : Nat} {first world next : World} {incidents : List Incident}

theorem Befalls.reaches (befalls : Befalls number world incidents next) : Reaches world next := by
  cases befalls with
  | turn isPoll step => exact .single (.step number step)
  | idle keepsFlag atRest => exact .refl
  | step different isActing step => exact .single (.step _ step)
  | operate operation => exact .single (.operate world operation)
  | register plan available => exact .single (.register plan available)
  | pass duration allowed => exact .single (.pass duration allowed)

theorem Undergoes.reaches (undergoes : Undergoes number first incidents world) :
    Reaches first world := by
  induction undergoes with
  | start => exact .refl
  | tail _ befalls induction => exact induction.trans befalls.reaches

theorem Moves.befalls (move : Moves world next) (number : Nat) :
    ∃ incidents, Befalls number world incidents next := by
  cases move with
  | step other step =>
      cases isPoll : world.polls[other]? with
      | none => simp [World.step?, isPoll] at step
      | some poll =>
          by_cases same : other = number
          · subst same
            exact ⟨_, .turn isPoll step⟩
          · exact ⟨_, .step same isPoll step⟩
  | operate operation => exact ⟨_, .operate world operation⟩
  | register plan available => exact ⟨_, .register plan available⟩
  | pass duration allowed => exact ⟨_, .pass duration allowed⟩

theorem Undergoes.reaching (undergoes : Undergoes number first incidents world)
    (reached : Reaches world next) : ∃ more, Undergoes number first (incidents ++ more) next := by
  induction reached with
  | refl => exact ⟨[], by rwa [List.append_nil]⟩
  | tail _ move induction =>
      rcases induction with ⟨earlier, undergone⟩
      rcases move.befalls number with ⟨more, befalls⟩
      exact ⟨earlier ++ more, List.append_assoc _ _ _ ▸ undergone.tail befalls⟩

namespace World

variable {policies : List FailurePolicy} {poll : Poll}

theorem afterCallback_course (tidy : world.IsTidy) :
    { world.course number poll with
      isActive := world.isActiveAfter number poll.callback poll.registry poll.handle } =
        (world.course number poll).afterCallback (world.keepsFlag poll) := by
  have flag : world.isActiveAfter number poll.callback poll.registry poll.handle =
      (world.isActive poll.registry poll.handle && world.keepsFlag poll) := by
    rw [Bool.eq_iff_iff, isActiveAfter_iff tidy, Bool.and_eq_true, keepsFlag]
    simp
  rw [flag]
  simp only [Course.afterCallback, course]
  cases phase : poll.phase with
  | running invocation finish => rfl
  | registered | sleeping _ _ | ended => simp [keepsFlag, Poll.callback, phase]

end World

/-- What becomes of a poll in one move follows from what befalls it. -/
theorem Befalls.course {policies : List FailurePolicy} {poll : Poll}
    (befalls : Befalls number world incidents next)
    (reached : Reaches (World.start policies) world)
    (isPoll : world.polls[number]? = some poll) :
    ∃ phase, next.polls[number]? = some { poll with phase } ∧
      next.course number { poll with phase } =
        (world.course number poll).meetAll poll.plan poll.policy incidents := by
  have tidy := Reaches.isTidy reached
  cases befalls with
  | turn isActing step =>
      have same := isPoll.symm.trans isActing
      rw [Option.some.injEq] at same
      subst same
      rcases World.course_of_step isPoll step with ⟨phase, isPollNext, stepped⟩
      rw [World.afterCallback_course tidy] at stepped
      refine ⟨phase, isPollNext, ?_⟩
      simp only [Course.meetAll, List.foldl_cons, List.foldl_nil, Course.meet, stepped,
        Option.getD_some]
  | idle keepsFlag atRest =>
      have rests := (World.step?_eq_none_iff isPoll).mp atRest
      exact ⟨poll.phase, isPoll, (rests.meet_turn keepsFlag).symm⟩
  | step different isActing step =>
      have spared := World.spares_of_step different step
      refine ⟨poll.phase, spared.poll.trans isPoll, ?_⟩
      rw [Course.meetAll_cancelled]
      exact World.course_of_step_of_ne isPoll reached different isActing step
  | operate operation =>
      have spared := World.Spares.operate number world .program operation
      refine ⟨poll.phase, spared.poll.trans isPoll, ?_⟩
      rw [Course.meetAll_cancelled]
      exact World.course_operate isPoll tidy .program operation
  | register plan available =>
      have present := World.getElem?_of_available available
      have known := Reaches.knows reached isPoll
      exact ⟨poll.phase, World.getElem?_register plan isPoll,
        World.course_register plan present known⟩
  | pass duration allowed => exact ⟨poll.phase, isPoll, rfl⟩

/-- What becomes of a poll in a run follows from what befalls it there. -/
theorem Undergoes.course {policies : List FailurePolicy} {poll : Poll}
    (undergoes : Undergoes number first incidents world)
    (reached : Reaches (World.start policies) first)
    (isPoll : first.polls[number]? = some poll) :
    ∃ phase, world.polls[number]? = some { poll with phase } ∧
      world.course number { poll with phase } =
        (first.course number poll).meetAll poll.plan poll.policy incidents := by
  induction undergoes with
  | start => exact ⟨poll.phase, isPoll, rfl⟩
  | tail undergone befalls induction =>
      rcases induction with ⟨phase, isPollThen, course⟩
      rcases befalls.course (reached.trans undergone.reaches) isPollThen with
        ⟨phaseNext, isPollNext, courseNext⟩
      refine ⟨phaseNext, isPollNext, ?_⟩
      rw [Course.meetAll_append, ← course]
      exact courseNext

end MetricWatch.Polling
