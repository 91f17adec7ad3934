/-
Response channels, the outbound half of a request: header fields are staged, a
status commits them, and then body octets are written or the connection to the
client is taken over.

A channel over states `σ` says what each call does to a state. A `Call` is one
of these calls as data, `Call.Reply` the type of its answer, and
`Channel.perform` carries it out.
-/
import UpgradeBridge.Capability
import UpgradeBridge.Headers
import UpgradeBridge.IoError
import UpgradeBridge.Status

namespace UpgradeBridge

/-- Why a channel refused a call. -/
inductive ChannelError
  /-- The channel lacks a capability. -/
  | unsupported (capability : Capability)
  /-- The call needs a committed head. -/
  | notCommitted
  /-- The response has no body. -/
  | bodyNotAllowed (status : Status)
  /-- The client has gone. -/
  | closed
  /-- The connection could not be handed over. -/
  | upgrade (reason : String)
  | io (error : IoError)
  deriving DecidableEq, Repr

/-- The text of an error. -/
def ChannelError.message : ChannelError → String
  | unsupported capability => "response channel does not support " ++ capability.text
  | notCommitted => "response head has not been committed"
  | bodyNotAllowed status => "status " ++ status.describe ++ " does not allow a response body"
  | closed => "client connection closed"
  | upgrade reason => "connection upgrade failed: " ++ reason
  | io error => error.message

/-- A connection that was taken over: what the client is going to send on it, and whether it closes
its side after that. -/
structure Connection where
  incoming : Bytes := []
  closes : Bool := true
  deriving DecidableEq, Repr

/-- What a hijack hands over: the connection, and octets already read from it. -/
structure Hijacked where
  connection : Connection := {}
  buffered : Bytes := []
  deriving DecidableEq, Repr

/-- A short account of what was handed over. -/
def Hijacked.describe (h : Hijacked) : String :=
  "Hijacked \x7b buffered: " ++ toString h.buffered.length ++ ", .. \x7d"

/-- What became of a call: an answer, or no answer ever. -/
inductive Step (σ α : Type)
  | replied (reply : α) (state : σ)
  | waits (state : σ)

/-- A response channel. Capabilities, flush, hijack and transmit are there to be overridden: without
them a channel has none of these. -/
structure Channel (σ : Type) where
  /-- The staged header fields. -/
  headers : σ → Headers
  /-- Puts other header fields in their place. -/
  setHeaders : σ → Headers → σ
  /-- Commits a status with the staged header fields. -/
  writeStatus : Status → σ → σ
  /-- Writes body octets, and tells how many were taken. -/
  write : Bytes → σ → Step σ (Except ChannelError Nat)
  capabilities : σ → Capabilities := fun _ => {}
  /-- Pushes what was staged to the client. -/
  flush : σ → Step σ (Except ChannelError Unit) :=
    fun s => .replied (.error (.unsupported .flush)) s
  /-- Takes the connection over. -/
  hijack : σ → Step σ (Except ChannelError Hijacked) :=
    fun s => .replied (.error (.unsupported .hijack)) s
  /-- Sends octets on the connection taken over last, and tells how many were accepted. -/
  transmit : Bytes → σ → Except IoError Nat × σ := fun _ s => (.error .brokenPipe, s)
  /-- What was staged is what is read. -/
  headers_setHeaders : ∀ s h, headers (setHeaders s h) = h := by intros; rfl

/-- A call on a channel. -/
inductive Call
  | headers
  | edit (edit : Headers.Edit)
  | writeStatus (status : Status)
  | write (data : Bytes)
  | capabilities
  | flush
  | hijack
  deriving DecidableEq, Repr

/-- The answer to a call. An edit is answered by whether its name had a value before. -/
abbrev Call.Reply : Call → Type
  | headers => Headers
  | edit _ => Bool
  | writeStatus _ => Unit
  | write _ => Except ChannelError Nat
  | capabilities => Capabilities
  | flush => Except ChannelError Unit
  | hijack => Except ChannelError Hijacked

/-- Carries out a call. -/
def Channel.perform {σ : Type} (channel : Channel σ) : (call : Call) → σ → Step σ call.Reply
  | .headers, s => .replied (channel.headers s) s
  | .edit e, s =>
    let headers := channel.headers s
    .replied (headers.contains e.name) (channel.setHeaders s (e.apply headers))
  | .writeStatus status, s => .replied () (channel.writeStatus status s)
  | .write data, s => channel.write data s
  | .capabilities, s => .replied (channel.capabilities s) s
  | .flush, s => channel.flush s
  | .hijack, s => channel.hijack s

end UpgradeBridge
