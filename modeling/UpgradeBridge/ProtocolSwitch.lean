/-
The answering half of the handshake. A protocol switch stands between a handler
and the response channel and turns the first "tunnel ready" status into the
answer that completes a WebSocket handshake. Every other call goes through
unchanged.

`State` keeps what was seen: the first commit decides between `switched` and
`passed`, and a hijack that succeeds ends the matter.
-/
import UpgradeBridge.AcceptToken
import UpgradeBridge.Program

namespace UpgradeBridge

/-- The status by which a handler says that its tunnel is ready. -/
def isTunnelReady (status : Status) : Bool :=
  status == Status.ok

/-- The key and the alphabet of the token that completes a handshake. -/
structure ProtocolSwitch where
  key : String
  alphabet : Base64.Alphabet := .standard
  deriving DecidableEq, Repr

namespace ProtocolSwitch

open Header

/-- How far a handshake has come. -/
inductive State
  /-- Nothing was committed. -/
  | waiting
  /-- The handshake was completed. -/
  | switched
  /-- Another status was committed first. -/
  | passed
  /-- The connection was taken over. -/
  | takenOver
  deriving DecidableEq, Repr

/-- The edits that make staged header fields those of a completed handshake. -/
def edits (p : ProtocolSwitch) : List Headers.Edit :=
  [.set Name.upgrade Value.websocket, .set Name.connection Value.upgrade] ++
    (match Value.ofString? (acceptToken p.key p.alphabet) with
      | some token => [.set Name.secWebSocketAccept token]
      | none => []) ++
    [.remove Name.padding]

/-- Makes some edits, then goes on. -/
def stage {α : Type} : List Headers.Edit → Program α → Program α
  | [], next => next
  | edit :: rest, next => .perform (.call (.edit edit)) fun _ => stage rest next

/-- Runs a program behind the switch, from a state on; returns the state it ends in too. -/
def apply {α : Type} (p : ProtocolSwitch) : State → Program α → Program (α × State)
  | state, .returns value => .returns (value, state)
  | _, .panics => .panics
  | _, .stalls => .stalls
  | state, .perform (.call (.writeStatus status)) next =>
    match state with
    | .waiting =>
      if isTunnelReady status then
        stage p.edits (.perform (.call (.writeStatus .switchingProtocols)) fun reply =>
          p.apply .switched (next reply))
      else .perform (.call (.writeStatus status)) fun reply => p.apply .passed (next reply)
    | state => .perform (.call (.writeStatus status)) fun reply => p.apply state (next reply)
  | state, .perform (.call .hijack) next =>
    .perform (.call .hijack) fun
      | .ok hijacked => p.apply .takenOver (next (.ok hijacked))
      | .error error => p.apply state (next (.error error))
  | state, .perform effect next => .perform effect fun reply => p.apply state (next reply)

end ProtocolSwitch

end UpgradeBridge
