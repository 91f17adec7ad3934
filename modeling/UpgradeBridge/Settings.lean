/-
The settings of a server, by section, with their defaults.
-/
import UpgradeBridge.Base64

namespace UpgradeBridge

/-- Where the server listens. -/
structure Settings.Listener where
  bindAddress : String := "0.0.0.0:8080"
  deriving DecidableEq, Repr

/-- How many seconds a dial and a request may take. -/
structure Settings.Timeouts where
  connectSecs : Nat := 5
  requestSecs : Nat := 30
  deriving DecidableEq, Repr

/-- Whether WebSocket handshakes are bridged, and the alphabet of their tokens. -/
structure Settings.Handshake where
  enabled : Bool := true
  acceptAlphabet : Base64.Alphabet := .standard
  deriving DecidableEq, Repr

/-- How much is logged. -/
structure Settings.Observability where
  logLevel : String := "info"
  deriving DecidableEq, Repr

/-- The settings of a server. -/
structure Settings where
  listener : Settings.Listener := {}
  timeouts : Settings.Timeouts := {}
  handshake : Settings.Handshake := {}
  observability : Settings.Observability := {}
  deriving DecidableEq, Repr

end UpgradeBridge
