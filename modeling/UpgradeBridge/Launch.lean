/-
What becomes of a start of the program: it is told to start wrongly, gives
help, rejects its settings, finds its address taken, or serves until it is told
to stop.

Only settings that were found valid get as far as the address. What is logged
on the way is a list of lines, from which a filter selects those written.
-/
import UpgradeBridge.CommandLine
import UpgradeBridge.Log.Filter
import UpgradeBridge.Settings.Loading
import UpgradeBridge.Tunnel

namespace UpgradeBridge

/-- What the surroundings of the program answer. -/
structure Host where
  /-- The content of a file. -/
  file : String → Except IoError Bytes
  /-- Starts to listen at an address, and tells which one it came to be. -/
  listen : SocketAddress → Except IoError SocketAddress

/-- What became of a start. -/
inductive Launch
  | wrongUsage
  | help
  | rejected (error : SettingsError)
  /-- The settings are valid, but their address is not to be had. -/
  | unbound (settings : Settings) (error : IoError)
  | serving (settings : Settings) (address : SocketAddress)
  deriving DecidableEq, Repr

namespace Launch

/-- The settings of a command line: those of its file or the defaults, with its address. -/
def configure (host : Host) (c : CommandLine) : Except SettingsError Settings := do
  let loaded ← match c.config with
    | none => .ok {}
    | some path =>
      match host.file path with
      | .error error => .error (.io error)
      | .ok content => Settings.load content
  match c.bind with
  | none => .ok loaded
  | some address => Settings.check { loaded with listener := { bindAddress := address } }

/-- Starts to listen where the settings say. -/
def listen (host : Host) (s : Settings) : Launch :=
  match SocketAddress.ofString? s.listener.bindAddress with
  | none => .unbound s .invalidSocketAddress
  | some address =>
    match host.listen address with
    | .error error => .unbound s error
    | .ok address => .serving s address

/-- Starts the program with some arguments. -/
def start (host : Host) (arguments : List String) : Launch :=
  match CommandLine.ofArguments arguments with
  | .wrong => .wrongUsage
  | .help => .help
  | .run c =>
    match configure host c with
    | .error error => .rejected error
    | .ok s => listen host s

/-- The part of the program that starts it. -/
def program : String := "wss_handshake_tunnel"

/-- The word for an alphabet in the log. -/
def alphabetWord : Base64.Alphabet → String
  | .standard => "Standard"
  | .urlSafe => "UrlSafe"

/-- What is logged once the settings are known. -/
def configured (s : Settings) : List LogLine :=
  [{ level := .info, target := program, message := "wss-handshake-tunnel v0.1.0 starting" },
    { level := .info, target := program, message := "Configuration loaded",
      fields := [("bind_address", s.listener.bindAddress),
        ("handshake", toString s.handshake.enabled),
        ("accept_alphabet", alphabetWord s.handshake.acceptAlphabet),
        ("connect_timeout_secs", toString s.timeouts.connectSecs)] }]

/-- The warning that goes with tokens that conforming clients reject. -/
def alphabetWarning (s : Settings) : List LogLine :=
  if s.handshake.enabled && s.handshake.acceptAlphabet == .urlSafe then
    [{ level := .warn, target := program ++ "::http::server",
       message := Tunnel.name ++
        " uses the URL-safe accept alphabet; RFC 6455 clients will reject most handshakes" }]
  else []

/-- The line that tells that requests are served. -/
def serverStarting (address : SocketAddress) : LogLine :=
  { level := .info, target := program ++ "::http::server", message := "HTTP server starting",
    fields := [("address", address.text)] }

/-- What is logged up to where the launch has come. -/
def log : Launch → List LogLine
  | wrongUsage => []
  | help => []
  | rejected _ => []
  | unbound s _ => configured s
  | serving s address =>
    configured s ++
      [{ level := .info, target := program, message := "Listening for connections",
         fields := [("address", address.text)] }] ++
      alphabetWarning s ++ [serverStarting address]

/-- What is logged when a server is told to stop. -/
def told : List LogLine :=
  [{ level := .info, target := program ++ "::lifecycle::signals",
     message := "Termination signal received" },
    { level := .info, target := program ++ "::http::server",
      message := "Shutdown signal received" },
    { level := .trace, target := "axum::serve",
      message := "received graceful shutdown signal. Telling tasks to shutdown" },
    { level := .trace, target := "axum::serve",
      message := "signal received, not accepting new connections" }]

/-- What is logged before a server waits for the connections it still serves. -/
def waiting (connections : Nat) : LogLine :=
  { level := .trace, target := "axum::serve",
    message := "waiting for " ++ toString connections ++ " task(s) to finish" }

/-- What is logged when a server has stopped. -/
def stopped : List LogLine :=
  [{ level := .info, target := program ++ "::http::server", message := "HTTP server stopped" },
    { level := .info, target := program, message := "Shutdown complete" }]

/-- What is logged while a server that serves nobody is told to stop. -/
def stopping : List LogLine :=
  told ++ [waiting 0] ++ stopped

/-- The settings that a launch came to. -/
def settings? : Launch → Option Settings
  | unbound s _ => some s
  | serving s _ => some s
  | _ => none

/-- The lines that a filter lets through. -/
def written (filter : LogFilter) (lines : List LogLine) : List String :=
  (lines.filter filter.passes).map LogLine.text

/-- The filter of a launch, given what the surroundings ask for. -/
def filter (asked : Option String) (l : Launch) : LogFilter :=
  LogFilter.choose asked ((l.settings?.getD {}).observability)

/-- The log tells that requests are served. -/
def isSeen (asked : Option String) (l : Launch) : Bool :=
  match l with
  | serving _ address => (l.filter asked).passes (serverStarting address)
  | _ => false

/-- What is written to the standard output, of a server also up to its end if it is told to stop. -/
def output (asked : Option String) (isStopped : Bool) (l : Launch) : List String :=
  match l with
  | help => CommandLine.helpLines
  | serving _ _ => written (l.filter asked) (l.log ++ if isStopped then stopping else [])
  | _ => written (l.filter asked) l.log

/-- What is written to the standard error. -/
def complaint : Launch → String
  | rejected .notToml => "Error: Parse"
  | rejected (.misfit _) => "Error: Parse"
  | rejected error => "Error: " ++ error.details ++ "\n"
  | unbound _ error => "Error: " ++ error.details ++ "\n"
  | wrongUsage => CommandLine.usageError
  | _ => ""

/-- The exit code; none for a server that goes on serving. -/
def exitCode (isStopped : Bool) : Launch → Option Nat
  | wrongUsage => some 2
  | help => some 0
  | rejected _ => some 1
  | unbound _ _ => some 1
  | serving _ _ => if isStopped then some 0 else none

end Launch

end UpgradeBridge
