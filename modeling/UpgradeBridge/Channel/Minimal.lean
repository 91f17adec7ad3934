/-
A response channel with no capability beyond the calls that every channel has.
-/
import UpgradeBridge.Channel

namespace UpgradeBridge

/-- What a minimal channel was given. -/
structure Minimal where
  headers : Headers := ∅
  statuses : List Status := []
  body : Bytes := []
  deriving DecidableEq, Repr

/-- The minimal channel. -/
def Minimal.channel : Channel Minimal where
  headers m := m.headers
  setHeaders m h := { m with headers := h }
  writeStatus status m := { m with statuses := m.statuses ++ [status] }
  write data m := .replied (.ok data.length) { m with body := m.body ++ data }

end UpgradeBridge
