/-
A response channel that records what is done to it, for trying out handlers.

Each commit is kept with the header fields staged at that moment, and these
stay staged. A hijack hands out one end of a connection in memory whose other
end, the peer, keeps what is sent to it. Calls can be made to fail, and writes
to be cut short.
-/
import UpgradeBridge.Channel

namespace UpgradeBridge

/-- The calls that fail on a recorder, with their errors. -/
structure Recorder.Failures where
  write : Option ChannelError := none
  flush : Option ChannelError := none
  hijack : Option ChannelError := none
  deriving DecidableEq, Repr

/-- What was recorded so far, and how the recorder behaves. -/
structure Recorder where
  /-- The capabilities that are told; flush and hijack work whatever is told. -/
  capabilities : Capabilities := .all
  /-- The client goes away as soon as its connection is taken over. -/
  hangsUp : Bool := false
  failures : Recorder.Failures := {}
  /-- The most octets that one write takes. -/
  writeLimit : Option Nat := none
  headers : Headers := ∅
  /-- Each committed status with the header fields staged then. -/
  commits : List (Status × Headers) := []
  body : Bytes := []
  flushes : Nat := 0
  hijacks : Nat := 0
  /-- What the peer of the last hijack can read. -/
  peer : Option Bytes := none
  deriving DecidableEq, Repr

namespace Recorder

/-- What a hijack finds already read from the client. -/
def earlyBytes : Bytes := utf8 "early bytes"

/-- The most octets that the peer holds. -/
def peerCapacity : Nat := 1024

/-- Appends to the body. -/
def write (data : Bytes) (r : Recorder) : Step Recorder (Except ChannelError Nat) :=
  match r.failures.write with
  | some error => .replied (.error error) r
  | none =>
    let taken := match r.writeLimit with
      | some limit => data.take limit
      | none => data
    .replied (.ok taken.length) { r with body := r.body ++ taken }

/-- Counts a flush. -/
def flush (r : Recorder) : Step Recorder (Except ChannelError Unit) :=
  match r.failures.flush with
  | some error => .replied (.error error) r
  | none => .replied (.ok ()) { r with flushes := r.flushes + 1 }

/-- Counts a hijack and hands out a connection with a new peer. -/
def hijack (r : Recorder) : Step Recorder (Except ChannelError Hijacked) :=
  match r.failures.hijack with
  | some error => .replied (.error error) r
  | none =>
    .replied (.ok { connection := { closes := r.hangsUp }, buffered := earlyBytes })
      { r with
        hijacks := r.hijacks + 1
        peer := if r.hangsUp then r.peer else some [] }

/-- Sends to the peer as much as it can hold. -/
def transmit (data : Bytes) (r : Recorder) : Except IoError Nat × Recorder :=
  match r.peer with
  | none => (.error .brokenPipe, r)
  | some held =>
    let accepted := data.take (peerCapacity - held.length)
    (.ok accepted.length, { r with peer := some (held ++ accepted) })

/-- The recorder as a response channel. -/
def channel : Channel Recorder where
  headers r := r.headers
  setHeaders r h := { r with headers := h }
  writeStatus status r := { r with commits := r.commits ++ [(status, r.headers)] }
  write := write
  capabilities r := r.capabilities
  flush := flush
  hijack := hijack
  transmit := transmit

end Recorder

end UpgradeBridge
