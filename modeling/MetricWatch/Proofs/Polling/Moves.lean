import Mathlib.Logic.Relation
import MetricWatch.Proofs.Polling.Activity

namespace MetricWatch.Polling

/-! Everything that happens is made of small moves, which may come in any order: a
poll takes a step, the program around the polls acts, or time passes. -/

/-- Without such a plan a poll could go on forever at one moment. -/
def Plan.TakesTime (plan : Plan) : Prop :=
  ∀ invocation, 0 < (plan.call invocation).duration + plan.interval

namespace World

def TakesTime (world : World) : Prop :=
  ∀ poll ∈ world.polls, poll.plan.TakesTime

def IsAtRest (world : World) : Prop :=
  ∀ number, world.step? number = none

/-- Time passes once every poll is at rest, up to the next moment when one of them
is due. A world may never come to rest if it has polls that take no time. -/
def Allows (world : World) (duration : Nat) : Prop :=
  world.TakesTime → world.IsAtRest ∧
    ∀ poll ∈ world.polls, ∀ due, poll.phase.due? = some due → world.now + duration ≤ due

end World

inductive Moves : World → World → Prop
  | step {world next : World} (number : Nat) :
      world.step? number = some next → Moves world next
  | operate (world : World) (operation : Operation) :
      Moves world (world.operate .program operation).1
  | register {world : World} {index : Nat} {registry : Registry} (plan : Plan) :
      world.registry? index = some registry → Moves world (world.register index registry plan)
  | pass {world : World} (duration : Nat) :
      world.Allows duration → Moves world { world with now := world.now + duration }

abbrev Reaches : World → World → Prop := Relation.ReflTransGen Moves

/-! What the journal tells about one poll, in the order of time: when its
invocations have started, and how and when they have ended. -/

structure Finish where
  outcome : Outcome
  time : Nat
deriving DecidableEq

namespace Entry

def start? (number : Nat) : Entry → Option Nat
  | ⟨.poll source, .started time⟩ => if source = number then some time else none
  | _ => none

def finish? (number : Nat) : Entry → Option Finish
  | ⟨.poll source, .finished outcome time⟩ =>
      if source = number then some ⟨outcome, time⟩ else none
  | _ => none

end Entry

namespace World

def starts (world : World) (number : Nat) : List Nat :=
  (world.journal.filterMap (Entry.start? number)).reverse

def finishes (world : World) (number : Nat) : List Finish :=
  (world.journal.filterMap (Entry.finish? number)).reverse

theorem starts_write (world : World) (source : Source) (event : Event) (number : Nat) :
    (world.write source event).starts number =
      world.starts number ++ (Entry.start? number ⟨source, event⟩).toList := by
  cases written : Entry.start? number ⟨source, event⟩ <;> simp [starts, write, written]

theorem finishes_write (world : World) (source : Source) (event : Event) (number : Nat) :
    (world.write source event).finishes number =
      world.finishes number ++ (Entry.finish? number ⟨source, event⟩).toList := by
  cases written : Entry.finish? number ⟨source, event⟩ <;> simp [finishes, write, written]

/-! What a change of the world leaves alone of a poll: everything but its activity. -/

structure Spares (number : Nat) (world next : World) : Prop where
  now : next.now = world.now
  poll : next.polls[number]? = world.polls[number]?
  starts : next.starts number = world.starts number
  finishes : next.finishes number = world.finishes number
  fades : world.Fades next

namespace Spares

theorem refl (number : Nat) (world : World) : Spares number world world :=
  ⟨rfl, rfl, rfl, rfl, .refl world⟩

theorem trans {number : Nat} {first second third : World}
    (earlier : Spares number first second) (later : Spares number second third) :
    Spares number first third :=
  ⟨later.now.trans earlier.now, later.poll.trans earlier.poll,
    later.starts.trans earlier.starts, later.finishes.trans earlier.finishes,
    earlier.fades.trans later.fades⟩

theorem write (number : Nat) (world : World) {source : Source} {event : Event}
    (noStart : Entry.start? number ⟨source, event⟩ = none)
    (noFinish : Entry.finish? number ⟨source, event⟩ = none) :
    Spares number world (world.write source event) where
  now := rfl
  poll := rfl
  starts := by simp [starts_write, noStart]
  finishes := by simp [finishes_write, noFinish]
  fades := .of_registries_eq rfl

theorem notice (number : Nat) (world : World) (source : Source) (notice : Notice) :
    Spares number world (world.write source (.noticed notice)) := by
  apply write <;> cases source <;> rfl

theorem write_of_ne {number other : Nat} (different : other ≠ number) (world : World)
    (event : Event) : Spares number world (world.write (.poll other) event) := by
  apply write
  · cases event <;> simp [Entry.start?, different]
  · cases event <;> simp [Entry.finish?, different]

theorem setPhase_of_ne {number other : Nat} (different : other ≠ number) (world : World)
    (phase : Phase) : Spares number world (world.setPhase other phase) where
  now := rfl
  poll := by
    simp [setPhase, different]
  starts := rfl
  finishes := rfl
  fades := .of_registries_eq rfl

theorem deactivate (number : Nat) (world : World) (index : Nat) (handle : Handle) :
    Spares number world (world.deactivate index handle) :=
  ⟨rfl, rfl, rfl, rfl, fades_deactivate world index handle⟩

theorem cancel (number : Nat) {world : World} {index : Nat} {registry : Registry}
    (source : Source) (handle : Handle) (present : world.registries[index]? = some registry) :
    Spares number world (world.cancel source index registry handle).1 := by
  have fades := fades_cancel source handle present
  by_cases active : registry.isActive handle
  · have written := notice number (world.setRegistry index (registry.deactivate handle))
      source (.cancelled handle)
    simp only [World.cancel, active, if_true] at fades ⊢
    exact ⟨rfl, rfl, written.starts, written.finishes, fades⟩
  · rw [World.cancel, if_neg active]
    exact refl number world

theorem operate (number : Nat) (world : World) (source : Source) (operation : Operation) :
    Spares number world (world.operate source operation).1 := by
  have fades := fades_operate world source operation
  cases operation with
  | cancel index poll =>
      cases available : world.registry? index with
      | none => simpa only [World.operate, available] using refl number world
      | some registry =>
          cases target : world.handle? poll with
          | none => simpa only [World.operate, available, target] using refl number world
          | some handle =>
              simpa only [World.operate, available, target] using
                cancel number source handle (getElem?_of_available available)
  | cancelAll index | drop index =>
      cases available : world.registry? index with
      | none => simpa only [World.operate, available] using refl number world
      | some registry =>
          simp only [World.operate, available] at fades ⊢
          exact ⟨rfl, rfl, rfl, rfl, fades⟩

theorem operateInside (number source : Nat) (world : World) (operation : Operation) :
    Spares number world (world.operateInside source operation) :=
  (operate number world (.poll source) operation).trans (write number _ rfl rfl)

theorem operations (number source : Nat) (world : World) (operations : List Operation) :
    Spares number world (operations.foldl (World.operateInside source) world) := by
  induction operations generalizing world with
  | nil => exact refl number world
  | cons operation operations induction =>
      exact (operateInside number source world operation).trans (induction _)

end Spares

end World

end MetricWatch.Polling
