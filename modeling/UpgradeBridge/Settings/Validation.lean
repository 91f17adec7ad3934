/-
What is wrong with settings. Each rule looks at one field, and every rule that
is broken is reported, in a fixed order.
-/
import UpgradeBridge.Settings
import UpgradeBridge.SocketAddress
import UpgradeBridge.Text.Ascii
import UpgradeBridge.Text.Quoted

namespace UpgradeBridge

/-- A time limit of the settings. -/
inductive Settings.Limit
  | connect
  | request
  deriving DecidableEq, Repr

/-- The name of a limit in its section. -/
def Settings.Limit.text : Settings.Limit → String
  | connect => "connect_secs"
  | request => "request_secs"

/-- Something wrong with settings. -/
inductive Problem
  /-- The address to listen at is no socket address. -/
  | bindAddress (text : String)
  /-- A time limit is zero. -/
  | zeroTimeout (limit : Settings.Limit)
  /-- The log level is unknown. -/
  | logLevel (text : String)
  deriving DecidableEq, Repr

namespace Problem

/-- The text of a problem. -/
def message : Problem → String
  | bindAddress text => "listener.bind_address " ++ quote text ++ " is not a socket address"
  | zeroTimeout limit => "timeouts." ++ limit.text ++ " must be greater than zero"
  | logLevel text =>
    "observability.log_level " ++ quote text ++ " is not one of trace, debug, info, warn, error"

/-- The full account of a problem, as it is given to whoever started the program. -/
def details : Problem → String
  | bindAddress text => "BindAddress(" ++ quote text ++ ")"
  | zeroTimeout limit => "ZeroTimeout(" ++ quote limit.text ++ ")"
  | logLevel text => "LogLevel(" ++ quote text ++ ")"

end Problem

/-- The log levels, from the most to the least talkative. -/
def logLevels : List String :=
  ["trace", "debug", "info", "warn", "error"]

namespace Settings

/-- A problem, if a condition holds. -/
def problemIf (broken : Bool) (p : Problem) : List Problem :=
  if broken then [p] else []

/-- Everything wrong with settings. -/
def problems (s : Settings) : List Problem :=
  problemIf (SocketAddress.ofString? s.listener.bindAddress).isNone
      (.bindAddress s.listener.bindAddress) ++
    problemIf (s.timeouts.connectSecs == 0) (.zeroTimeout .connect) ++
    problemIf (s.timeouts.requestSecs == 0) (.zeroTimeout .request) ++
    problemIf (!logLevels.contains (Ascii.lower s.observability.logLevel))
      (.logLevel s.observability.logLevel)

end Settings

end UpgradeBridge
