/-
Actions on a response channel given as data, as scripts list them. Each action
is a small program.
-/
import UpgradeBridge.Program

namespace UpgradeBridge

/-- Something a script does to the response channel. -/
inductive Action
  | set (name : Header.Name) (value : Header.Value)
  | append (name : Header.Name) (value : Header.Value)
  | remove (name : Header.Name)
  | get (name : Header.Name)
  | headers
  | status (status : Status)
  | write (data : Bytes)
  | flush
  | capabilities
  /-- Takes the connection over, and sends something on it. -/
  | hijack (send : Option Bytes)
  deriving DecidableEq, Repr

namespace Action

/-- The answer that a result or an error amounts to. -/
def answer {α : Type} (ok : α → Answer) : Except ChannelError α → Answer
  | .ok value => ok value
  | .error error => .failed error

/-- Carries out an action. -/
def program : Action → Program Answer
  | .set name value => do
    let _ ← Program.call (.edit (.set name value))
    pure .done
  | .append name value => do
    let present ← Program.call (.edit (.append name value))
    pure (.had present)
  | .remove name => do
    let present ← Program.call (.edit (.remove name))
    pure (.had present)
  | .get name => do
    let headers ← Program.call .headers
    pure (.values (headers.values name))
  | .headers => do
    let headers ← Program.call .headers
    pure (.headers headers)
  | .status code => do
    Program.call (.writeStatus code)
    pure .done
  | .write data => do
    let result ← Program.call (.write data)
    pure (answer .count result)
  | .flush => do
    let result ← Program.call .flush
    pure (answer (fun _ => .done) result)
  | .capabilities => do
    let capabilities ← Program.call .capabilities
    pure (.capabilities capabilities)
  | .hijack send => do
    match ← Program.call .hijack, send with
    | .error error, _ => pure (.failed error)
    | .ok hijacked, none => pure (.hijacked hijacked none)
    | .ok hijacked, some data => do
      let sent ← Program.transmit data
      pure (.hijacked hijacked (some sent))

end Action

end UpgradeBridge
