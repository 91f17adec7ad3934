/-
The program: reads its arguments and settings, serves until it is told to stop,
and writes the log.
-/
import UpgradeBridge.Launch
import UpgradeBridge.Live
import Std.Async.Signal

namespace UpgradeBridge.Live

open Std.Async

/-- The octets of a file. -/
def content (path : String) : IO (Except IoError Bytes) := do
  try
    let data ← IO.FS.readBinFile path
    pure (.ok (unpack data))
  catch error => pure (.error (ioError error))

/-- The octets of the file that a command line names. -/
def settingsFile (arguments : List String) : IO (Except IoError Bytes) :=
  match CommandLine.ofArguments arguments with
  | .run { config := some path, .. } => content path
  | _ => pure (.ok [])

/-- Writes the log lines that a filter lets through. -/
def write (filter : LogFilter) : Journal := fun lines => do
  let out ← IO.getStdout
  for line in lines.filter filter.passes do
    out.putStrLn (line.stamped (← time "uuuu-MM-dd'T'HH:mm:ss.SSSSSS'Z'"))
  out.flush

/-- Tells the server to stop when a signal comes. -/
def watch (signal : Signal) (stop : Std.CancellationToken) : IO Unit := do
  let waiter ← Signal.Waiter.mk signal false
  let came ← waiter.wait
  let _ ← came.mapIO fun _ => stop.cancel

/-- Serves with some settings until a signal comes. -/
def serveUntilTold (settings : Settings) (journal : Journal) (listener : Listener) : IO Unit := do
  let stop ← Std.CancellationToken.new
  watch .sigint stop
  watch .sigterm stop
  let running ← (serve (Server.ofSettings settings) journal stop listener).block
  journal (Launch.told ++ [Launch.waiting running.length])
  for task in running do
    let _ ← (attempt (await task)).block
  journal Launch.stopped

/-- Starts the program, with the listening socket that a launch needs. -/
def start (arguments : List String) : IO (Launch × Option Listener) := do
  let file ← settingsFile arguments
  let host : Host := { file := fun _ => file, listen := .ok }
  match Launch.start host arguments with
  | .serving _ address =>
    let listening ← listen address
    let host := { host with listen := fun _ => listening.map (·.2) }
    pure (Launch.start host arguments, listening.toOption.map (·.1))
  | launch => pure (launch, none)

end UpgradeBridge.Live

open UpgradeBridge in
/-- Runs the program, and gives its exit code. -/
def main (arguments : List String) : IO UInt32 := do
  let (launch, listener) ← Live.start arguments
  let journal := Live.write (launch.filter (← IO.getEnv "RUST_LOG"))
  if launch = .help then CommandLine.helpLines.forM IO.println
  journal launch.log
  if let (.serving settings _, some listener) := (launch, listener) then
    Live.serveUntilTold settings journal listener
  (← IO.getStderr).putStr launch.complaint
  pure (UInt32.ofNat ((launch.exitCode true).getD 0))
