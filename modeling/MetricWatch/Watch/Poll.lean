import MetricWatch.Clock.Present
import MetricWatch.Watch.Detail
import MetricWatch.Watch.Report

namespace MetricWatch.Watch

/-! One poll: the query is asked, and what the answer says is printed. All that
happens outside goes through the machine that the program runs on. -/

/-- What the program asks of its machine. A request is answered by a reply or not at all. -/
structure Machine (m : Type → Type) where
  zone : Zone
  present : m Present
  ticks : m Nat
  exchange : Query.Request → m (Option Query.Reply)
  record : LogRecord → m Unit
  print : String → m Unit

namespace Machine

variable {m : Type → Type} [Monad m] (machine : Machine m)

def printLines (lines : List String) : m Unit :=
  lines.forM fun line => machine.print (line ++ "\n")

/-- An answer is printed at the present time, and the last minute is the one before it. -/
def printAnswer (answer : Option (List Sample)) : m Unit := do
  let present ← machine.present
  machine.printLines
    (lines machine.zone (present.instant.timeOfDay machine.zone) present.window.start answer)

/-- What comes of a request: only the body of the reply counts. -/
def send (request : Query.Request) : m (Except Query.Failure (Option (List Sample))) := do
  match ← machine.exchange request with
  | none => return Query.conclude none
  | some reply =>
      machine.record (replyRecord reply)
      return Query.conclude (some reply.body)

variable [Url.NameMapping] (proxy : Option Url) (question : Query.Question)

/-- A query goes through the proxy, if there is one. -/
def ask : m (Except Query.Failure (Option (List Sample))) := do
  match Query.requestUrl proxy question proxy.isSome with
  | .error failure => return .error failure
  | .ok url =>
      machine.record (askingRecord url)
      match Query.Request.ofUrl? url with
      | none => return Query.conclude none
      | some request => machine.send request

/-- Nothing is printed about a query that fails. -/
def poll : m (Except Query.Failure Unit) := do
  let start ← machine.ticks
  let answer ← machine.ask proxy question
  let finish ← machine.ticks
  machine.record (durationRecord question.expression (.ofNanoseconds (finish - start)))
  match answer with
  | .error failure => return .error failure
  | .ok answer =>
      machine.printAnswer answer
      return .ok ()

end Machine

/-! A machine that keeps an account of what it is asked. -/

/-- What a machine has done. -/
structure Account where
  requests : List Query.Request
  records : List LogRecord
  output : String
  readings : Nat

namespace Account

def empty : Account := ⟨[], [], "", 0⟩

def sent (request : Query.Request) (account : Account) : Account :=
  { account with requests := account.requests ++ [request] }

def recorded (record : LogRecord) (account : Account) : Account :=
  { account with records := account.records ++ [record] }

def printed (text : String) (account : Account) : Account :=
  { account with output := account.output ++ text }

def read (account : Account) : Account :=
  { account with readings := account.readings + 1 }

end Account

/-- The surroundings of a machine: the network, and what the clocks show whenever they
are read. -/
structure Surroundings where
  network : Query.Request → Option Query.Reply
  clock : Nat → Present
  stopwatch : Nat → Nat
  zone : Zone

namespace Surroundings

/-- A machine in its surroundings. -/
def machine (surroundings : Surroundings) : Machine (StateM Account) where
  zone := surroundings.zone
  present := fun account => (surroundings.clock account.readings, account.read)
  ticks := fun account => (surroundings.stopwatch account.readings, account.read)
  exchange := fun request account => (surroundings.network request, account.sent request)
  record := fun record account => ((), account.recorded record)
  print := fun text account => ((), account.printed text)

/-- How a poll ends, and what it has done by then. -/
def poll [Url.NameMapping] (surroundings : Surroundings) (proxy : Option Url)
    (question : Query.Question) : Except Query.Failure Unit × Account :=
  (surroundings.machine.poll proxy question).run .empty

end Surroundings

end MetricWatch.Watch
