/-
What scripted stages note down while they serve a request.
-/
import UpgradeBridge.HandlerError
import UpgradeBridge.Request

namespace UpgradeBridge

/-- The answer to one action of a script. -/
inductive Answer
  | done
  /-- Whether a header name had a value before. -/
  | had (present : Bool)
  | values (values : List Header.Value)
  | headers (headers : Headers)
  /-- How many octets were taken. -/
  | count (octets : Nat)
  | capabilities (capabilities : Capabilities)
  /-- A connection was taken over, and octets were sent on it or none were to be sent. -/
  | hijacked (hijacked : Hijacked) (sent : Option (Except IoError Nat))
  | failed (error : ChannelError)

/-- The error of an answer. -/
def Answer.error? : Answer → Option ChannelError
  | failed error => some error
  | _ => none

/-- A place in a pipeline. -/
inductive Place
  /-- A middleware, counted from 0. -/
  | stage (index : Nat)
  | handler
  deriving DecidableEq, Repr

/-- The name of a place. -/
def Place.text : Place → String
  | stage index => "m" ++ toString index
  | handler => "handler"

/-- Something noted down. -/
inductive Note
  /-- The request as it came in. -/
  | saw (request : Request)
  /-- The answer to an action. -/
  | did (answer : Answer)
  /-- What the next stage returned. -/
  | next (outcome : Except HandlerError Unit)

end UpgradeBridge
