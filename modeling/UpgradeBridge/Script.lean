/-
Stages of a pipeline given as data: a script edits the request, acts on the
response channel, breaks off, waits or fails, and as a middleware calls the
next stage in between. What it sees and is answered it notes down.
-/
import UpgradeBridge.Action
import UpgradeBridge.Pipeline

namespace UpgradeBridge

/-- Changes to a request. -/
structure RequestEdit where
  method : Option Method := none
  uri : Option Uri := none
  remove : List Header.Name := []
  set : List (Header.Name × Header.Value) := []
  deriving DecidableEq, Repr

/-- The request after the changes; header names are removed before others are set. -/
def RequestEdit.apply (e : RequestEdit) (r : Request) : Request :=
  { r with
    method := e.method.getD r.method
    uri := e.uri.getD r.uri
    headers := e.set.foldl (fun h p => h.insert p.1 p.2) (e.remove.foldl Headers.remove r.headers) }

/-- A stage given as data, in the order in which its parts are carried out. -/
structure Script where
  /-- Notes the request down. -/
  sees : Bool := true
  edit : RequestEdit := {}
  actions : List Action := []
  panics : Bool := false
  stalls : Bool := false
  /-- Fails with an error. -/
  fails : Option HandlerError := none
  /-- Calls the next stage, as a middleware. -/
  proceeds : Bool := true
  /-- Goes on although the next stage failed. -/
  swallows : Bool := false
  after : List Action := []
  /-- An action that fails ends the script. -/
  propagates : Bool := false

namespace Script

/-- Carries out actions and notes their answers down. -/
def act (place : Place) (propagates : Bool) : List Action → Program (Except HandlerError Unit)
  | [] => pure (.ok ())
  | action :: rest => do
    let answer ← action.program
    Program.note place (.did answer)
    match propagates, answer.error? with
    | true, some error => pure (.error (.channel error))
    | _, _ => act place propagates rest

/-- The script up to the call of the next stage; goes on with the edited request. -/
def opening (s : Script) (place : Place) (request : Request) :
    Program (Except HandlerError Request) := do
  if s.sees then Program.note place (.saw request)
  match ← act place s.propagates s.actions with
  | .error error => pure (.error error)
  | .ok () =>
    if s.panics then .panics
    else if s.stalls then .stalls
    else
      match s.fails with
      | some error => pure (.error error)
      | none => pure (.ok (s.edit.apply request))

/-- The script as a terminal handler. -/
def handler (s : Script) : Handler := fun request => do
  match ← s.opening .handler request with
  | .error error => pure (.error error)
  | .ok _ => act .handler s.propagates s.after

/-- The script as the middleware of a place. -/
def middleware (s : Script) (place : Place) : Middleware := fun next request => do
  match ← s.opening place request with
  | .error error => pure (.error error)
  | .ok request =>
    if s.proceeds then
      let outcome ← next request
      Program.note place (.next outcome)
      match outcome, s.swallows with
      | .error error, false => pure (.error error)
      | _, _ => act place s.propagates s.after
    else act place s.propagates s.after

end Script

end UpgradeBridge
