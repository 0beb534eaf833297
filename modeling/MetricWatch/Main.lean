import MetricWatch.Watch.Poll
import MetricWatch.Watch.Session
import Std.Async.DNS
import Std.Async.Signal
import Std.Async.TCP
import Std.Async.Timer
import Std.Time.Zoned

namespace MetricWatch.Main

open Std.Async

/-! The clock and the time zone of the machine. -/

def present : IO Present := do
  let time := (← Std.Time.Timestamp.now).toDurationSinceUnixEpoch
  match (Instant.of? time.second.val time.nano.val.toNat).bind Present.of? with
  | some present => return present
  | none => throw (IO.userError "the clock is beyond the calendar")

def localZone : IO Zone := do
  try
    let rules ← Std.Time.Database.defaultGetLocalZoneRules
    return fun instant =>
      let time := Std.Time.Timestamp.ofSecondsSinceUnixEpoch ⟨instant.seconds⟩
      (Offset.of? (rules.findLocalTimeTypeForTimestamp time).gmtOffset.second.val).getD .utc
  catch _ => return utc

def dateText : IO String := do
  return (← Std.Time.PlainDateTime.now).format "uuuu-MM-dd HH:mm:ss.SSS"

/-! The network. All the addresses of a host are tried until one accepts the
connection, and all that it sends is taken. -/

def addressAt (port : UInt16) : Std.Net.IPAddr → Std.Net.SocketAddress
  | .v4 address => .v4 ⟨address, port⟩
  | .v6 address => .v6 ⟨address, port⟩

def connect : List Std.Net.SocketAddress → Async TCP.Socket.Client
  | [] => throw (IO.userError "the host has no address")
  | [address] => do
      let socket ← TCP.Socket.Client.mk
      socket.connect address
      return socket
  | address :: others => do
      try
        let socket ← TCP.Socket.Client.mk
        socket.connect address
        return socket
      catch _ => connect others

partial def receive (socket : TCP.Socket.Client) (received : ByteArray) : Async ByteArray := do
  match ← socket.recv? 65536 with
  | none => return received
  | some bytes => receive socket (received ++ bytes)

def exchange (request : Query.Request) : Async (Option Query.Reply) := do
  try
    let port := UInt16.ofNat request.port
    let addresses ← DNS.getAddrInfo request.hostName ""
    let socket ← connect (addresses.toList.map (addressAt port))
    socket.send ⟨request.bytes.toArray⟩
    let received ← receive socket .empty
    return Query.Reply.ofBytes? received.toList
  catch _ => return none

/-- What a session works with. Whatever takes time is given up when the user
interrupts it. -/
structure Console where
  settings : CommandLine.Settings
  log : IO.FS.Handle
  zone : Zone
  interruption : AsyncTask Int

namespace Console

def record (console : Console) (records : List LogRecord) : IO Unit := do
  let date ← dateText
  console.log.putStr
    (logText console.settings.logLevel (records.map fun record => (date, record)))
  console.log.flush

def print (text : String) : IO Unit := do
  let output ← IO.getStdout
  output.putStr text
  output.flush

def unlessInterrupted (console : Console) (action : Async α) : IO (Option α) := do
  let task ← action.toIO
  let interrupted := Task.map (fun _ => none) console.interruption
  match ← IO.waitAny [interrupted, Task.map some task] with
  | none => return none
  | some result => some <$> IO.ofExcept result

/-- One poll runs on this machine. It comes to no end when the user interrupts it. -/
def machine (console : Console) : Watch.Machine (OptionT IO) where
  zone := console.zone
  present := liftM present
  ticks := liftM IO.monoNanosNow
  exchange := fun request => OptionT.mk (console.unlessInterrupted (exchange request))
  record := fun record => liftM (console.record [record])
  print := fun text => liftM (print text)

def poll (console : Console) : IO (Option Polling.Outcome) := do
  let settings := console.settings
  let ended ← (console.machine.poll settings.proxy (Watch.question settings)).run
  return ended.map Watch.outcome

/-! The query is asked again after the interval until the user interrupts, or until
it fails, if that is a reason to stop. -/

def handle : Polling.Handle := ⟨0⟩

def interval (console : Console) : Nat :=
  console.settings.interval.toNat

def notice (console : Console) (notice : Polling.Notice) : IO Unit :=
  console.record [notice.record]

partial def watch (console : Console) : IO Unit := do
  match (← console.poll).map console.settings.failurePolicy.consequence with
  | none | some .breakOff => return
  | some (.giveUp report) =>
      console.notice (.stopping handle report)
      console.notice (.stopped handle)
  | some (.goOn report) =>
      if let some report := report then
        console.notice (.retrying handle console.interval report)
      let slept ← console.unlessInterrupted (sleep (.ofNat console.interval))
      if slept.isSome then console.watch

def run (console : Console) : IO Unit := do
  console.record (Watch.openingRecords console.settings)
  console.notice (.registered handle console.interval)
  console.watch
  discard console.interruption.block
  console.record [Watch.interruptedRecord handle]

end Console

/-! From the command line to the exit code. -/

def environment : IO CommandLine.Environment := do
  let names := CommandLine.Setting.all.map CommandLine.Setting.variableName
  let found ← names.mapM fun name => do return (name, ← IO.getEnv name)
  return fun name => (found.lookup name).join

def begin (settings : CommandLine.Settings) : IO UInt32 := do
  try
    let log ← IO.FS.Handle.mk ⟨settings.logFile⟩ .append
    let waiter ← Signal.Waiter.mk .sigint false
    let console : Console := ⟨settings, log, ← localZone, ← waiter.wait⟩
    console.run
    return 0
  catch error =>
    IO.eprintln ("Error: " ++ toString error)
    return .ofNat CommandLine.failureCode

def leave (interruption : CommandLine.Interruption) : IO UInt32 := do
  if let some reply := interruption.reply? then IO.println reply
  if let some complaint := interruption.complaint? then IO.eprintln complaint
  return .ofNat interruption.exitCode

end MetricWatch.Main

def main (arguments : List String) : IO UInt32 := do
  match MetricWatch.CommandLine.Settings.read (← MetricWatch.Main.environment) arguments with
  | .ok settings => MetricWatch.Main.begin settings
  | .error interruption => MetricWatch.Main.leave interruption
