/-
Both sides of a streamed response at work: the channel's side acts and in the
end is dropped; the receiver's side takes the head, reads the body and drops
either.
-/
import UpgradeBridge.Action
import UpgradeBridge.Channel.Stream

namespace UpgradeBridge

/-- A streamed response, and whether its channel's side is still there. -/
structure Exchange where
  stream : Stream
  present : Bool := true
  deriving DecidableEq, Repr

namespace Exchange

/-- One step of either side. -/
inductive Move
  /-- An action of the channel's side. -/
  | act (action : Action)
  | takeHead
  | read
  | dropHead
  | dropBody
  | dropChannel
  deriving DecidableEq, Repr

/-- What came of a step. -/
inductive Result
  | answer (answer : Answer)
  /-- The step waits for the other side. -/
  | pending
  /-- There is nothing to work on. -/
  | absent
  /-- The head was not handed over yet. -/
  | empty
  /-- The head is not going to be handed over any more. -/
  | closed
  | head (head : Head)
  | chunk (data : Bytes)
  /-- The body is at its end. -/
  | ended
  /-- Whether there was something to drop. -/
  | dropped (present : Bool)

/-- The surroundings of the channel's side. No action uses the network. -/
def world : World Stream where
  channel := Stream.channel
  network := ⟨fun _ _ => .timedOut, fun _ => .error .brokenPipe, fun _ => none⟩

/-- Takes the head out of its slot. -/
def takeHead (e : Exchange) : Result × Exchange :=
  match e.stream.slot with
  | .ready head =>
    (.head head, { e with stream := { e.stream with slot := .taken, reader := .held } })
  | .empty => (if e.stream.headSender then .empty else .closed, e)
  | .taken => (.closed, e)
  | .gone => (.absent, e)

/-- Reads the next chunk of the body that was taken. -/
def read (e : Exchange) : Result × Exchange :=
  if e.stream.reader == .held then
    match e.stream.queue with
    | data :: rest => (.chunk data, { e with stream := { e.stream with queue := rest } })
    | [] =>
      if e.stream.bodySender then (.pending, e)
      else (.ended, { e with stream := { e.stream with reader := .gone } })
  else (.absent, e)

/-- Drops the receiver of the head, and with it a response that was not taken. -/
def dropHead (e : Exchange) : Result × Exchange :=
  match e.stream.slot with
  | .gone => (.dropped false, e)
  | .ready _ =>
    (.dropped true,
      { e with stream := { e.stream with slot := .gone, reader := .gone, queue := [] } })
  | _ => (.dropped true, { e with stream := { e.stream with slot := .gone } })

/-- Drops the body that was taken. -/
def dropBody (e : Exchange) : Result × Exchange :=
  if e.stream.reader == .held then
    (.dropped true, { e with stream := { e.stream with reader := .gone, queue := [] } })
  else (.dropped false, e)

/-- Drops the channel's side. -/
def dropChannel (e : Exchange) : Result × Exchange :=
  (.dropped e.present, { stream := e.stream.close, present := false })

/-- An action of the channel's side. -/
def act (action : Action) (e : Exchange) : Result × Exchange :=
  if e.present then
    let run := action.program.run world e.stream
    match run.outcome with
    | .returned answer => (.answer answer, { e with stream := run.state })
    | _ => (.pending, { e with stream := run.state })
  else (.absent, e)

/-- One step. -/
def step (e : Exchange) : Move → Result × Exchange
  | .act action => e.act action
  | .takeHead => e.takeHead
  | .read => e.read
  | .dropHead => e.dropHead
  | .dropBody => e.dropBody
  | .dropChannel => e.dropChannel

end Exchange

end UpgradeBridge
