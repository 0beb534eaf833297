import MetricWatch.Proofs.Polling.Rest

namespace MetricWatch.Polling

/-! The invocations of a poll come one after the other in the order of its plan: the
number of an invocation is the number of those that have started, and ended, before
it. -/

namespace Course

/-- A course at the moment when its poll is registered. -/
def registered (now : Nat) : Course := ⟨now, true, .registered, [], []⟩

def Counts (course : Course) : Prop :=
  match course.phase with
  | .registered => course.starts = [] ∧ course.finishes = []
  | .running invocation _ =>
      course.starts.length = invocation + 1 ∧ course.finishes.length = invocation
  | .sleeping invocation _ =>
      course.starts.length = invocation + 1 ∧ course.finishes.length = invocation + 1
  | .ended =>
      course.isActive = false ∧ course.starts ≠ [] ∧
        course.finishes.length = course.starts.length

def FollowsPlan (plan : Plan) (course : Course) : Prop :=
  ∀ invocation finish, course.finishes[invocation]? = some finish →
    finish.outcome = (plan.call invocation).outcome

/-- No phase reaches beyond the moment when something is due. -/
def IsInTime (course : Course) : Prop :=
  ∀ due, course.phase.due? = some due → course.now ≤ due

theorem counts_registered (now : Nat) : (registered now).Counts := ⟨rfl, rfl⟩

theorem followsPlan_registered (plan : Plan) (now : Nat) : (registered now).FollowsPlan plan := by
  intro invocation finish isFinish
  simp [registered] at isFinish

theorem isInTime_registered (now : Nat) : (registered now).IsInTime := by
  intro due isDue
  cases isDue

section Steps

variable {timely : Prop} {plan : Plan} {policy : FailurePolicy} {course next : Course}

theorem finishes_finish (course : Course) (plan : Plan) (policy : FailurePolicy)
    (invocation : Nat) :
    (course.finish plan policy invocation).finishes =
      course.finishes ++ [⟨(plan.call invocation).outcome, course.now⟩] := by
  simp only [finish]
  split <;> rfl

theorem starts_finish (course : Course) (plan : Plan) (policy : FailurePolicy)
    (invocation : Nat) : (course.finish plan policy invocation).starts = course.starts := by
  simp only [finish]
  split <;> rfl

theorem now_finish (course : Course) (plan : Plan) (policy : FailurePolicy)
    (invocation : Nat) : (course.finish plan policy invocation).now = course.now := by
  simp only [finish]
  split <;> rfl

theorem isActive_finish (course : Course) (plan : Plan) (policy : FailurePolicy)
    (invocation : Nat) :
    (course.finish plan policy invocation).isActive =
      (course.isActive && goesOn (policy.consequence (plan.call invocation).outcome)) := by
  simp only [finish]
  split
  · rename_i sleeps
    rw [sleeps]
    exact (Bool.and_eq_true_iff.mp sleeps).1
  · rename_i ends
    exact (Bool.eq_false_iff.mpr ends).symm

theorem isActive_of_finish_ended {plan : Plan} {policy : FailurePolicy} {invocation : Nat}
    (ended : (course.finish plan policy invocation).phase = .ended) :
    (course.finish plan policy invocation).isActive = false := by
  rw [isActive_finish, Bool.eq_false_iff]
  intro sleeps
  simp only [finish, sleeps, if_true] at ended
  cases ended

/-- Everything that a single step of a poll may be. -/
inductive Step (plan : Plan) (policy : FailurePolicy) (course : Course) : Course → Prop
  | first : course.phase = .registered → Step plan policy course (course.begin plan 0)
  | again {invocation wake : Nat} : course.phase = .sleeping invocation wake →
      course.isActive = true → wake ≤ course.now →
      Step plan policy course (course.begin plan (invocation + 1))
  | finish {invocation finish : Nat} : course.phase = .running invocation finish →
      finish ≤ course.now → Step plan policy course (course.finish plan policy invocation)
  | stop {invocation wake : Nat} : course.phase = .sleeping invocation wake →
      course.isActive = false → Step plan policy course { course with phase := .ended }

theorem Step.of_step? (step : course.step? plan policy = some next) :
    Step plan policy course next := by
  unfold step? at step
  split at step
  · rename_i phase
    cases step
    exact .first phase
  · rename_i phase
    split at step
    · rename_i due
      cases step
      exact .finish phase due
    · cases step
  · rename_i phase
    split at step
    · rename_i inactive
      cases step
      exact .stop phase (by simpa using inactive)
    · rename_i active
      split at step
      · rename_i due
        cases step
        exact .again phase (by simpa using active) due
      · cases step
  · cases step

theorem Counts.proceeds (counts : course.Counts)
    (proceeds : Proceeds timely plan policy course next) : next.Counts := by
  cases proceeds with
  | deactivate =>
      unfold Counts at counts ⊢
      cases phase : course.phase with
      | registered | running _ _ | sleeping _ _ => simpa only [phase] using counts
      | ended =>
          simp only [phase] at counts ⊢
          exact ⟨trivial, counts.2⟩
  | wait duration => exact counts
  | step step =>
      unfold Counts at counts
      cases Step.of_step? step with
      | first phase =>
          simp only [phase] at counts
          simp [Counts, begin, counts]
      | again phase active due =>
          simp only [phase] at counts
          simp [Counts, begin, counts]
      | @finish invocation finish phase due =>
          simp only [phase] at counts
          unfold Course.finish
          simp only
          split
          · simp [Counts, counts]
          · have started : course.starts ≠ [] := by
              intro empty
              simp [empty] at counts
            simp [Counts, counts, started]
      | stop phase inactive =>
          simp only [phase] at counts
          have started : course.starts ≠ [] := by
            intro empty
            simp [empty] at counts
          simp [Counts, counts, started, inactive]

theorem FollowsPlan.proceeds (counts : course.Counts) (follows : course.FollowsPlan plan)
    (proceeds : Proceeds timely plan policy course next) : next.FollowsPlan plan := by
  cases proceeds with
  | deactivate => exact follows
  | wait duration => exact follows
  | step step =>
      cases Step.of_step? step with
      | first phase => exact follows
      | again phase active due => exact follows
      | stop phase inactive => exact follows
      | @finish invocation finish phase due =>
          simp only [Counts, phase] at counts
          intro number found isFound
          rw [finishes_finish] at isFound
          rcases Nat.lt_or_ge number course.finishes.length with below | beyond
          · rw [List.getElem?_append_left below] at isFound
            exact follows number found isFound
          · rw [List.getElem?_append_right beyond, List.getElem?_singleton] at isFound
            split at isFound
            · rename_i isLast
              cases isFound
              have same : number = invocation := by omega
              rw [same]
            · cases isFound

theorem IsInTime.proceeds (inTime : course.IsInTime) (isTimely : timely)
    (proceeds : Proceeds timely plan policy course next) : next.IsInTime := by
  cases proceeds with
  | deactivate => exact inTime
  | wait duration allowed => exact (allowed isTimely).2
  | step step =>
      intro due isDue
      cases Step.of_step? step with
      | first phase | again phase active wake =>
          simp only [begin, Phase.due?, Option.some.injEq] at isDue ⊢
          omega
      | stop phase inactive => simp [Phase.due?] at isDue
      | finish phase reached =>
          rw [now_finish]
          simp only [finish] at isDue
          split at isDue
          · simp only [Phase.due?, Option.some.injEq] at isDue
            omega
          · simp [Phase.due?] at isDue

/-! The journal only grows. -/

theorem starts_of_proceeds (proceeds : Proceeds timely plan policy course next) :
    course.starts <+: next.starts := by
  cases proceeds with
  | deactivate => exact List.prefix_rfl
  | wait duration => exact List.prefix_rfl
  | step step =>
      cases Step.of_step? step with
      | first phase | again phase active due => exact List.prefix_append _ _
      | stop phase inactive => exact List.prefix_rfl
      | finish phase due => exact (starts_finish ..).symm ▸ List.prefix_rfl

theorem finishes_of_proceeds (proceeds : Proceeds timely plan policy course next) :
    course.finishes <+: next.finishes := by
  cases proceeds with
  | deactivate => exact List.prefix_rfl
  | wait duration => exact List.prefix_rfl
  | step step =>
      cases Step.of_step? step with
      | first phase | again phase active due => exact List.prefix_rfl
      | stop phase inactive => exact List.prefix_rfl
      | finish phase due =>
          rw [finishes_finish]
          exact List.prefix_append _ _

theorem now_of_proceeds (proceeds : Proceeds timely plan policy course next) :
    course.now ≤ next.now := by
  cases proceeds with
  | deactivate => exact Nat.le_refl _
  | wait duration => exact Nat.le_add_right _ _
  | step step =>
      cases Step.of_step? step with
      | first phase | again phase active due | stop phase inactive => exact Nat.le_refl _
      | finish phase due => exact Nat.le_of_eq (now_finish ..).symm

theorem starts_of_unfolds (unfolds : Unfolds timely plan policy course next) :
    course.starts <+: next.starts := by
  induction unfolds with
  | refl => exact List.prefix_rfl
  | tail _ proceeds induction => exact induction.trans (starts_of_proceeds proceeds)

theorem finishes_of_unfolds (unfolds : Unfolds timely plan policy course next) :
    course.finishes <+: next.finishes := by
  induction unfolds with
  | refl => exact List.prefix_rfl
  | tail _ proceeds induction => exact induction.trans (finishes_of_proceeds proceeds)

/-- What every step keeps holds from one moment of a course to all later ones. -/
theorem Unfolds.keeps {Holds : Course → Prop}
    (kept : ∀ {course next}, Holds course → Proceeds timely plan policy course next → Holds next)
    (holds : Holds course) (unfolds : Unfolds timely plan policy course next) : Holds next := by
  induction unfolds with
  | refl => exact holds
  | tail _ proceeds induction => exact kept induction proceeds

/-- Nothing comes after the end. -/
theorem ended_of_unfolds (ended : course.phase = .ended)
    (unfolds : Unfolds timely plan policy course next) :
    next.phase = .ended ∧ next.starts = course.starts ∧ next.finishes = course.finishes := by
  induction unfolds with
  | refl => exact ⟨ended, rfl, rfl⟩
  | @tail later next _ proceeds induction =>
      cases proceeds with
      | deactivate => exact induction
      | wait duration => exact induction
      | step step => simp [step?, induction.1] at step

end Steps

end Course

/-! Nothing is known of a poll before it is registered. -/

theorem getElem?_of_prefix {Content : Type} {front whole : List Content} {index : Nat}
    {content : Content} (isPrefix : front <+: whole) (found : front[index]? = some content) :
    whole[index]? = some content := by
  have ⟨below, equal⟩ := List.getElem?_eq_some_iff.mp found
  rw [← equal]
  exact List.prefix_iff_getElem?.mp isPrefix index below

theorem Moves.none_of_none {world next : World} (move : Moves world next) {number : Nat}
    (isNone : next.polls[number]? = none) : world.polls[number]? = none := by
  cases earlier : world.polls[number]? with
  | none => rfl
  | some poll =>
      rcases move.getElem? earlier with ⟨phase, isPoll⟩
      rw [isNone] at isPoll
      cases isPoll

theorem Moves.starts_of_none {world next : World} (move : Moves world next) {number : Nat}
    (isNone : next.polls[number]? = none) :
    next.starts number = world.starts number ∧
      next.finishes number = world.finishes number := by
  have wasNone := move.none_of_none isNone
  cases move with
  | step other step =>
      have different : other ≠ number := by
        intro same
        subst same
        simp [World.step?, wasNone] at step
      have spared := World.spares_of_step different step
      exact ⟨spared.starts, spared.finishes⟩
  | operate operation =>
      have spared := World.Spares.operate number world .program operation
      exact ⟨spared.starts, spared.finishes⟩
  | register plan available =>
      exact ⟨World.starts_register plan number, World.finishes_register plan number⟩
  | pass duration allowed => exact ⟨rfl, rfl⟩

theorem Reaches.nothing_of_none {policies : List FailurePolicy} {world : World}
    (reached : Reaches (World.start policies) world) {number : Nat}
    (isNone : world.polls[number]? = none) :
    world.starts number = [] ∧ world.finishes number = [] := by
  induction reached with
  | refl => exact ⟨rfl, rfl⟩
  | @tail before after _ move induction =>
      have ⟨starts, finishes⟩ := move.starts_of_none isNone
      rw [starts, finishes]
      exact induction (move.none_of_none isNone)

namespace World

theorem course_registered {policies : List FailurePolicy} {world : World}
    (reached : Reaches (World.start policies) world) {index : Nat} {registry : Registry}
    (plan : Plan) (available : world.registry? index = some registry) :
    (world.register index registry plan).course world.polls.length
        ⟨index, registry.nextHandle, registry.policy, plan, .registered⟩ =
      .registered world.now := by
  have ⟨starts, finishes⟩ := reached.nothing_of_none
    (List.getElem?_eq_none (Nat.le_refl world.polls.length))
  have active : (world.register index registry plan).isActive index registry.nextHandle = true :=
    isActive_register_nextHandle plan (getElem?_of_available available)
  simp only [course, active, starts_register, finishes_register, starts, finishes]
  rfl

end World

/-- What holds of a newly registered poll and is kept by whatever a poll sees holds of
every poll at any time. -/
theorem Reaches.holds {policies : List FailurePolicy} {world : World}
    (reached : Reaches (World.start policies) world) {timely : Prop}
    (takesTime : timely → world.TakesTime) {Holds : Plan → FailurePolicy → Course → Prop}
    (initially : ∀ plan policy now, Holds plan policy (.registered now))
    (kept : ∀ {plan policy course next}, Holds plan policy course →
      Course.Proceeds timely plan policy course next → Holds plan policy next)
    {number : Nat} {poll : Poll} (isPoll : world.polls[number]? = some poll) :
    Holds poll.plan poll.policy (world.course number poll) := by
  induction reached generalizing poll with
  | refl => simp [World.start] at isPoll
  | @tail before after reached move induction =>
      cases earlier : before.polls[number]? with
      | none =>
          rcases move.new_poll isPoll earlier with
            ⟨_, _, plan, available, rfl, rfl, rfl⟩
          rw [World.course_registered reached plan available]
          exact initially _ _ _
      | some old =>
          have takesTimeBefore : timely → before.TakesTime := fun isTimely =>
            move.takesTime (takesTime isTimely)
          have holds := induction takesTimeBefore earlier
          have known := Reaches.knows reached earlier
          rcases move.unfolds earlier known takesTimeBefore with ⟨phase, isPollStill, unfolds⟩
          rw [isPoll, Option.some.injEq] at isPollStill
          subst isPollStill
          have holdsStill := Course.Unfolds.keeps kept holds unfolds
          exact holdsStill

theorem Reaches.counts {policies : List FailurePolicy} {world : World}
    (reached : Reaches (World.start policies) world) {number : Nat} {poll : Poll}
    (isPoll : world.polls[number]? = some poll) : (world.course number poll).Counts := by
  have kept : ∀ {plan : Plan} {policy : FailurePolicy} {course next : Course}, course.Counts →
      Course.Proceeds False plan policy course next → next.Counts :=
    fun counts proceeds => counts.proceeds proceeds
  exact reached.holds False.elim (fun _ _ now => Course.counts_registered now) kept isPoll

theorem Reaches.followsPlan {policies : List FailurePolicy} {world : World}
    (reached : Reaches (World.start policies) world) {number : Nat} {poll : Poll}
    (isPoll : world.polls[number]? = some poll) :
    (world.course number poll).FollowsPlan poll.plan := by
  have kept : ∀ {plan : Plan} {policy : FailurePolicy} {course next : Course},
      course.Counts ∧ course.FollowsPlan plan →
        Course.Proceeds False plan policy course next →
          next.Counts ∧ next.FollowsPlan plan :=
    fun holds proceeds => ⟨holds.1.proceeds proceeds, holds.2.proceeds holds.1 proceeds⟩
  have initially : ∀ (plan : Plan) (policy : FailurePolicy) (now : Nat),
      (Course.registered now).Counts ∧ (Course.registered now).FollowsPlan plan :=
    fun plan _ now => ⟨Course.counts_registered now, Course.followsPlan_registered plan now⟩
  exact (reached.holds False.elim initially kept isPoll).2

theorem Reaches.isInTime {policies : List FailurePolicy} {world : World}
    (reached : Reaches (World.start policies) world) (takesTime : world.TakesTime)
    {number : Nat} {poll : Poll} (isPoll : world.polls[number]? = some poll) :
    (world.course number poll).IsInTime := by
  have kept : ∀ {plan : Plan} {policy : FailurePolicy} {course next : Course},
      course.IsInTime → Course.Proceeds True plan policy course next → next.IsInTime :=
    fun inTime proceeds => inTime.proceeds trivial proceeds
  exact reached.holds (fun _ => takesTime) (fun _ _ now => Course.isInTime_registered now)
    kept isPoll

end MetricWatch.Polling
