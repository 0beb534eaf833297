import MetricWatch.Polling.Notice

namespace MetricWatch.Polling

/-! Polls and registries at one moment of time. Times are counted in
milliseconds. A poll invokes its callback, waits until it has ended, and then
sleeps for its interval before the next invocation. -/

/-- What may be asked of a registry at any time. Polls are numbered over all
registries in the order in which they were registered. -/
inductive Operation where
  | cancel (registry : Nat) (poll : Nat)
  | cancelAll (registry : Nat)
  | drop (registry : Nat)
deriving DecidableEq

inductive Reply where
  | cancelled (wasActive : Bool)
  | done
  | noRegistry
deriving DecidableEq

/-- One invocation of a callback: it takes some time, then operates on
registries, and ends. A failure is reported to the poll, if the callback reports
anything at all. -/
inductive Outcome where
  | succeeded
  | failed (report : Option String)
  | panicked
deriving DecidableEq

/-- What follows from an outcome: the poll goes on, it gives up, or it breaks off
without a word. -/
inductive Consequence where
  | goOn (report : Option String)
  | giveUp (report : String)
  | breakOff
deriving DecidableEq

def FailurePolicy.consequence (policy : FailurePolicy) : Outcome → Consequence
  | .succeeded | .failed none => .goOn none
  | .failed (some report) =>
      match policy with
      | .continue => .goOn (some report)
      | .stop => .giveUp report
  | .panicked => .breakOff

structure Call where
  duration : Nat
  operations : List Operation
  outcome : Outcome
deriving DecidableEq

/-- What a poll does: how long it sleeps, and what each of its invocations is like. -/
structure Plan where
  interval : Nat
  call : (invocation : Nat) → Call

/-- What a poll is doing, for a callback or a sleep with the time when it is over. -/
inductive Phase where
  | registered
  | running (invocation : Nat) (finish : Nat)
  | sleeping (invocation : Nat) (wake : Nat)
  | ended
deriving DecidableEq

/-- When a poll has something to do next. -/
def Phase.due? : Phase → Option Nat
  | .running _ finish => some finish
  | .sleeping _ wake => some wake
  | .registered | .ended => none

structure Poll where
  registry : Nat
  handle : Handle
  policy : FailurePolicy
  plan : Plan
  phase : Phase

/-! The journal keeps what happened, the latest first, and who brought it about:
one of the polls, or the program around them. -/

inductive Source where
  | program
  | poll (number : Nat)
deriving DecidableEq

inductive Event where
  | started (time : Nat)
  | operated (reply : Reply) (time : Nat)
  | finished (outcome : Outcome) (time : Nat)
  | noticed (notice : Notice)
deriving DecidableEq

structure Entry where
  source : Source
  event : Event
deriving DecidableEq

/-- Everything that is going on at one moment. -/
structure World where
  now : Nat
  registries : List Registry
  polls : List Poll
  journal : List Entry

namespace World

def start (policies : List FailurePolicy) : World :=
  ⟨0, policies.map Registry.empty, [], []⟩

def write (world : World) (source : Source) (event : Event) : World :=
  { world with journal := ⟨source, event⟩ :: world.journal }

/-! Registries that can still be operated on, and the activity of handles, which
is kept also for a dropped registry. -/

def registry? (world : World) (index : Nat) : Option Registry :=
  match world.registries[index]? with
  | some registry => if registry.isDropped then none else some registry
  | none => none

def isActive (world : World) (registry : Nat) (handle : Handle) : Bool :=
  match world.registries[registry]? with
  | some registry => registry.isActive handle
  | none => false

def setRegistry (world : World) (index : Nat) (registry : Registry) : World :=
  { world with registries := world.registries.set index registry }

def deactivate (world : World) (registry : Nat) (handle : Handle) : World :=
  { world with registries := world.registries.modify registry (·.deactivate handle) }

def handle? (world : World) (poll : Nat) : Option Handle :=
  world.polls[poll]?.map (·.handle)

/-- Only a handle that is still active can be cancelled. -/
def cancel (world : World) (source : Source) (index : Nat) (registry : Registry)
    (handle : Handle) : World × Reply :=
  if registry.isActive handle then
    ((world.setRegistry index (registry.deactivate handle)).write source
      (.noticed (.cancelled handle)), .cancelled true)
  else (world, .cancelled false)

/-- The world after an operation, and the reply to whoever asked for it. -/
def operate (world : World) (source : Source) : Operation → World × Reply
  | .cancel index poll =>
      match world.registry? index with
      | none => (world, .noRegistry)
      | some registry =>
          match world.handle? poll with
          | none => (world, .cancelled false)
          | some handle => world.cancel source index registry handle
  | .cancelAll index =>
      match world.registry? index with
      | none => (world, .noRegistry)
      | some registry => (world.setRegistry index registry.cancelAll, .done)
  | .drop index =>
      match world.registry? index with
      | none => (world, .noRegistry)
      | some registry => (world.setRegistry index registry.drop, .done)

/-- A registered poll has not begun its first invocation yet. -/
def register (world : World) (index : Nat) (registry : Registry) (plan : Plan) : World :=
  let handle := registry.nextHandle
  let poll : Poll := ⟨index, handle, registry.policy, plan, .registered⟩
  let registered := world.setRegistry index registry.register
  { registered with polls := registered.polls ++ [poll] }.write .program
    (.noticed (.registered handle plan.interval))

/-! What a poll does at a moment. -/

def setPhase (world : World) (number : Nat) (phase : Phase) : World :=
  { world with polls := world.polls.modify number fun poll => { poll with phase } }

def begin (world : World) (number : Nat) (poll : Poll) (invocation : Nat) : World :=
  (world.setPhase number
    (.running invocation (world.now + (poll.plan.call invocation).duration))).write
      (.poll number) (.started world.now)

def stop (world : World) (number : Nat) (poll : Poll) : World :=
  (world.setPhase number .ended).write (.poll number) (.noticed (.stopped poll.handle))

def operateInside (number : Nat) (world : World) (operation : Operation) : World :=
  let (operated, reply) := world.operate (.poll number) operation
  operated.write (.poll number) (.operated reply world.now)

/-- After an invocation the poll sleeps, unless it has been cancelled meanwhile. -/
def rest (world : World) (number : Nat) (poll : Poll) (invocation : Nat) : World :=
  if world.isActive poll.registry poll.handle then
    world.setPhase number (.sleeping invocation (world.now + poll.plan.interval))
  else world.stop number poll

def writeRetry (world : World) (number : Nat) (poll : Poll) : Option String → World
  | none => world
  | some report =>
      world.write (.poll number) (.noticed (.retrying poll.handle poll.plan.interval report))

def follow (world : World) (number : Nat) (poll : Poll) (invocation : Nat) :
    Consequence → World
  | .goOn report => (world.writeRetry number poll report).rest number poll invocation
  | .giveUp report =>
      ((world.write (.poll number) (.noticed (.stopping poll.handle report))).deactivate
        poll.registry poll.handle).stop number poll
  | .breakOff => (world.deactivate poll.registry poll.handle).setPhase number .ended

def finish (world : World) (number : Nat) (poll : Poll) (invocation : Nat) : World :=
  let call := poll.plan.call invocation
  let operated := call.operations.foldl (operateInside number) world
  (operated.write (.poll number) (.finished call.outcome world.now)).follow
    number poll invocation (poll.policy.consequence call.outcome)

/-- The next thing a poll does without time passing, if there is any. A poll that
has been cancelled in its sleep ends instead of waking up. -/
def step? (world : World) (number : Nat) : Option World :=
  match world.polls[number]? with
  | none => none
  | some poll =>
      match poll.phase with
      | .registered => some (world.begin number poll 0)
      | .running invocation finish =>
          if finish ≤ world.now then some (world.finish number poll invocation) else none
      | .sleeping invocation wake =>
          if !world.isActive poll.registry poll.handle then some (world.stop number poll)
          else if wake ≤ world.now then some (world.begin number poll (invocation + 1))
          else none
      | .ended => none

/-! A poll goes on as long as it can without time passing. It does no more than
`stepsAtOnce` things in one go, so that a poll without interval whose callback
takes no time does not stand in the way of everything else. -/

def stepsAtOnce : Nat := 10000

/-- The steps of one poll, as long as there are any and the limit allows. -/
def runPoll (limit : Nat) (world : World) (number : Nat) : World :=
  match limit with
  | 0 => world
  | limit + 1 =>
      match world.step? number with
      | none => world
      | some next => next.runPoll limit number

def runPolls (world : World) : World :=
  (List.range world.polls.length).foldl (runPoll stepsAtOnce) world

/-- Polls may cancel each other; those that are cancelled in their sleep end in
the second round. -/
def settle (world : World) : World :=
  world.runPolls.runPolls

def nextDue? (world : World) : Option Nat :=
  (world.polls.filterMap fun poll => poll.phase.due?).min?

/-- Time passes from one due moment to the next, including those at its end. -/
def advance (world : World) (duration : Nat) : World :=
  let settled := world.settle
  match settled.nextDue? with
  | none => { settled with now := settled.now + duration }
  | some due =>
      let wait := due - settled.now
      if _within : 0 < wait ∧ wait ≤ duration then
        { settled with now := settled.now + wait }.advance (duration - wait)
      else { settled with now := settled.now + duration }
termination_by duration
decreasing_by exact Nat.sub_lt (Nat.lt_of_lt_of_le _within.1 _within.2) _within.1

end World

/-- What the program around the polls does. A poll can only be registered where
callbacks can be run. -/
inductive Command where
  | register (registry : Nat) (plan : Plan) (canRun : Bool)
  | operate (operation : Operation)
  | advance (duration : Nat)
  | settle

inductive Answer where
  | registered (handle : Handle)
  | cannotRun
  | reply (reply : Reply)
  | done

namespace World

/-- The world after a command, and the answer to it. -/
def perform (world : World) : Command → World × Answer
  | .register index plan canRun =>
      match world.registry? index with
      | none => (world, .reply .noRegistry)
      | some registry =>
          if canRun then (world.register index registry plan, .registered registry.nextHandle)
          else (world, .cannotRun)
  | .operate operation =>
      let (operated, reply) := world.operate .program operation
      (operated, .reply reply)
  | .advance duration => (world.advance duration, .done)
  | .settle => (world.settle, .done)

def run (world : World) (commands : List Command) : World :=
  commands.foldl (fun world command => (world.perform command).1) world

end World

def cannotRunMessage : String := "polling requires a running tokio runtime"

end MetricWatch.Polling
