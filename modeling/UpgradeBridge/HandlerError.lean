/-
Why a request could not be served, and the status that says so to the client.
-/
import UpgradeBridge.Channel

namespace UpgradeBridge

/-- Why a handler gave up. -/
inductive HandlerError
  /-- The response channel lacks a capability that the request needs. -/
  | lacksCapability (capability : Capability)
  /-- The host to be connected to is no authority. -/
  | invalidHost (host : String)
  /-- The host could not be connected to, or was lost. -/
  | connectFailed (host : String) (source : IoError)
  /-- The host did not answer in time. -/
  | connectTimedOut (host : String)
  /-- The response channel refused a call. -/
  | channel (error : ChannelError)
  deriving DecidableEq, Repr

namespace HandlerError

/-- The text of an error. -/
def message : HandlerError → String
  | lacksCapability capability => "response channel does not support " ++ capability.text
  | invalidHost host => "invalid tunnel host " ++ quote host
  | connectFailed host source => "failed to connect to " ++ host ++ ": " ++ source.message
  | connectTimedOut host => "timed out connecting to " ++ host
  | channel error => error.message

/-- The status that tells a client about an error. -/
def status : HandlerError → Status
  | lacksCapability _ => .internalServerError
  | invalidHost _ => .badRequest
  | connectFailed _ _ => .badGateway
  | connectTimedOut _ => .gatewayTimeout
  | channel _ => .internalServerError

end HandlerError

end UpgradeBridge
