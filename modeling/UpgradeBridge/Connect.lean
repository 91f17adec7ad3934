/-
The handler of CONNECT requests: dials the host that the target names, says
that the tunnel is ready, takes the client's connection over and copies between
the two.

Nothing is committed before the dial has succeeded.
-/
import UpgradeBridge.Pipeline

namespace UpgradeBridge.Connect

/-- What a request is told that does not ask for a tunnel. -/
def refusal : String := "only tunnel requests are served here\n"

/-- Refuses a request that does not ask for a tunnel. -/
def refuse : Program (Except HandlerError Unit) := do
  Program.call (.writeStatus .methodNotAllowed)
  match ← Program.call (.write (utf8 refusal)) with
  | .error error => pure (.error (.channel error))
  | .ok _ => pure (.ok ())

/-- Sends ahead what was read from the client before the takeover. -/
def forwardBuffered (buffered : Bytes) : Program (Except IoError Unit) :=
  if buffered.isEmpty then pure (.ok ()) else Program.forward buffered

/-- Takes the client's connection over and copies between it and the backend. -/
def takeOver (host : String) : Program (Except HandlerError Unit) := do
  match ← Program.call .flush with
  | .error error => pure (.error (.channel error))
  | .ok () =>
    match ← Program.call .hijack with
    | .error error => pure (.error (.channel error))
    | .ok hijacked =>
      match ← forwardBuffered hijacked.buffered with
      | .error error => pure (.error (.connectFailed host error))
      | .ok () => do
        let _ ← Program.relay hijacked.connection
        pure (.ok ())

/-- Joins the client to the backend that was connected to. -/
def join (host : String) : Program (Except HandlerError Unit) := do
  Program.call (.writeStatus .ok)
  takeOver host

/-- Goes on after the dial. -/
def proceed (host : String) : Dial → Program (Except HandlerError Unit)
  | .failed error => pure (.error (.connectFailed host error))
  | .timedOut => pure (.error (.connectTimedOut host))
  | .connected => join host

/-- Serves a request, waiting for a backend no longer than a number of milliseconds. -/
def serve (timeout : Nat) : Handler := fun request =>
  if request.method ≠ Method.connect then refuse
  else
    match request.uri.authority? with
    | none => pure (.error (.invalidHost request.uri.text))
    | some authority => do
      let dialled ← Program.dial authority.text timeout
      proceed authority.text dialled

end UpgradeBridge.Connect
