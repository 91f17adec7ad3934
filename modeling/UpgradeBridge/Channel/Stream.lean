/-
The response channel of a served request. The head is handed over once, to a
receiver that may have gone; the body is streamed to it through a queue of at
most sixteen chunks; and the connection is handed over by an upgrade handle,
if the request has one.

The channel's side holds the staged header fields, a sender for the head until
the commit, a sender for the body after the commit of a status with a body, and
the upgrade handle until a hijack is tried. The other side is the slot of the
head and the reader of the body; `Channel.Exchange` works on both.
-/
import UpgradeBridge.Channel

namespace UpgradeBridge

/-- How a connection is going to be handed over. -/
inductive UpgradeHandle
  | fails (reason : String)
  | opens (hijacked : Hijacked)
  deriving DecidableEq, Repr

/-- The handle of a connection that cannot be handed over. -/
def UpgradeHandle.unavailable : UpgradeHandle := .fails "no upgrade available"

/-- The head of a response. -/
structure Head where
  status : Status
  headers : Headers
  deriving DecidableEq, Repr

/-- Where the head of a response is. -/
inductive Slot
  /-- It was not handed over yet. -/
  | empty
  | ready (head : Head)
  | taken
  /-- Nobody receives it. -/
  | gone
  deriving DecidableEq, Repr

/-- Where the reading end of a body is. -/
inductive Reader
  /-- There is no response yet. -/
  | absent
  /-- In a response that was not taken. -/
  | waiting
  /-- With whoever took the response. -/
  | held
  /-- Nowhere: it was dropped, or the body was read to its end. -/
  | gone
  deriving DecidableEq, Repr

/-- The two sides of a response. -/
structure Stream where
  headers : Headers := ∅
  /-- The head can still be handed over. -/
  headSender : Bool := true
  /-- The body can still be written. -/
  bodySender : Bool := false
  /-- The committed status. -/
  status : Option Status := none
  upgrade : Option UpgradeHandle := none
  slot : Slot := .empty
  reader : Reader := .absent
  /-- The chunks written and not read, oldest first. -/
  queue : List Bytes := []
  /-- What was sent to the client on the connection that was handed over. -/
  sent : Bytes := []
  deriving DecidableEq, Repr

namespace Stream

/-- The most chunks that wait to be read. -/
def capacity : Nat := 16

/-- A status was committed. -/
def isCommitted (s : Stream) : Bool :=
  s.status.isSome

/-- Commits a status: the head goes to its receiver, if there is one, and takes the staged header
fields along. Only the first commit does anything. -/
def writeStatus (status : Status) (s : Stream) : Stream :=
  if s.headSender then
    let received := s.slot == .empty
    { s with
      headers := ∅
      headSender := false
      bodySender := status.allowsBody
      status := some status
      slot := if received then .ready ⟨status, s.headers⟩ else s.slot
      reader := if received then .waiting else .gone }
  else s

/-- Commits 200 if nothing was committed. -/
def commitIfNeeded (s : Stream) : Stream :=
  if s.isCommitted then s else s.writeStatus .ok

/-- Puts a chunk into the queue of a committed response. -/
def push (data : Bytes) (s : Stream) : Step Stream (Except ChannelError Nat) :=
  if s.bodySender then
    if s.reader == .gone then .replied (.error .closed) s
    else if s.queue.length < capacity then
      .replied (.ok data.length) { s with queue := s.queue ++ [data] }
    else .waits s
  else
    match s.status with
    | some status => .replied (.error (.bodyNotAllowed status)) s
    | none => .replied (.error .notCommitted) s

/-- Writes a chunk, after a commit. -/
def write (data : Bytes) (s : Stream) : Step Stream (Except ChannelError Nat) :=
  s.commitIfNeeded.push data

/-- Chunks are passed on as they are written, so that only the head can be held back. -/
def flush (s : Stream) : Step Stream (Except ChannelError Unit) :=
  .replied (.ok ()) s.commitIfNeeded

/-- A flush always works, a hijack while there is a handle. -/
def capabilities (s : Stream) : Capabilities :=
  { flush := true, hijack := s.upgrade.isSome }

/-- Takes the connection over after a commit. The handle is spent and the body ends, also when the
connection cannot be handed over. -/
def hijack (s : Stream) : Step Stream (Except ChannelError Hijacked) :=
  if s.isCommitted then
    match s.upgrade with
    | none => .replied (.error (.unsupported .hijack)) s
    | some (.fails reason) =>
      .replied (.error (.upgrade reason)) { s with upgrade := none, bodySender := false }
    | some (.opens hijacked) =>
      .replied (.ok hijacked) { s with upgrade := none, bodySender := false }
  else .replied (.error .notCommitted) s

/-- The channel's side as a response channel. -/
def channel : Channel Stream where
  headers s := s.headers
  setHeaders s h := { s with headers := h }
  writeStatus := writeStatus
  write := write
  capabilities := capabilities
  flush := flush
  hijack := hijack
  transmit data s := (.ok data.length, { s with sent := s.sent ++ data })

/-- The channel's side ends: nothing more is handed over or written. -/
def close (s : Stream) : Stream :=
  { s with headSender := false, bodySender := false }

end Stream

/-- A whole response. -/
structure Response where
  status : Status
  headers : Headers
  body : Bytes
  deriving DecidableEq, Repr

/-- The response that the receiver finds when the channel's side has ended: the head that waits for
it and every chunk of the queue. -/
def Stream.response? (s : Stream) : Option Response :=
  match s.slot with
  | .ready head => some ⟨head.status, head.headers, s.queue.flatten⟩
  | _ => none

end UpgradeBridge
