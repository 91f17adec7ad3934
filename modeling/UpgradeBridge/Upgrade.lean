/-
Which requests ask for a WebSocket through a tunnel, and the CONNECT request
that stands for such a request.

`detect` looks at the method and at the last value of four header names;
`retarget` names the host as the target and removes what only the handshake
needs, and `rewrite` does the same to a request where it stands.
-/
import UpgradeBridge.HandlerError
import UpgradeBridge.Request
import UpgradeBridge.Uri.Reading

namespace UpgradeBridge

/-- A request for a WebSocket: the key of the client and the host to be connected to. -/
structure Upgrade where
  key : String
  host : Header.Value
  deriving DecidableEq, Repr

namespace Upgrade

open Header

/-- The text of the last value of a name, when it is visible and not empty. -/
def lastText? (h : Headers) (name : Name) : Option String :=
  match (h.last? name).bind Value.text? with
  | some text => if text.isEmpty then none else some text
  | none => none

/-- The last value of a name passes a test. -/
def lastPasses (h : Headers) (name : Name) (test : Bytes → Bool) : Bool :=
  match h.last? name with
  | some v => test v.bytes
  | none => false

/-- What a request for a WebSocket asks for; none for any other request. -/
def detect (r : Request) : Option Upgrade :=
  if r.method = Method.get ∧
      lastPasses r.headers Name.upgrade (· == utf8 "websocket") ∧
      lastPasses r.headers Name.connection (Ascii.sameIgnoringCase · (utf8 "upgrade")) then
    match lastText? r.headers Name.secWebSocketKey, lastText? r.headers Name.xConnectHost,
        r.headers.last? Name.xConnectHost with
    | some key, some _, some host => some { key, host }
    | _, _, _ => none
  else none

/-- The host as text, which is empty for a value that is not visible. -/
def hostText (u : Upgrade) : String :=
  u.host.text?.getD ""

/-- The target that the host names: an authority and nothing else. -/
def target? (u : Upgrade) : Option Uri :=
  match Uri.read? u.hostText with
  | some (.authority a) => some (.authority a)
  | _ => none

/-- The CONNECT request for the host. It is told its host, and the handshake headers are gone. -/
def retarget (u : Upgrade) (r : Request) : Except HandlerError Request :=
  match u.target? with
  | none => .error (.invalidHost u.hostText)
  | some uri =>
    .ok { r with
      method := Method.connect
      uri := uri
      headers := ((((r.headers.insert Name.host u.host).remove Name.upgrade).remove
        Name.connection).remove Name.secWebSocketKey).remove Name.xConnectHost }

/-- The changes that make the header fields of a request those of its CONNECT request. -/
def edits (u : Upgrade) : List Headers.Edit :=
  [.set Name.host u.host, .remove Name.upgrade, .remove Name.connection,
    .remove Name.secWebSocketKey, .remove Name.xConnectHost]

/-- Retargets a request where it stands, one change after the other. -/
def rewrite (u : Upgrade) : ExceptT HandlerError (StateM Request) Unit := do
  match u.target? with
  | none => throw (.invalidHost u.hostText)
  | some uri =>
    modify fun r => { r with method := Method.connect }
    modify fun r => { r with uri := uri }
    for edit in u.edits do
      modify fun r => { r with headers := edit.apply r.headers }

end Upgrade

end UpgradeBridge
