/-
Programs of effects, and what becomes of one when it is run.

A program serves one request: it calls the response channel, dials and talks to
a backend, and notes things down. It is a tree: after each effect it goes on
with what the answer selects. Running it against a `World` gives how it ended,
the state of the channel, and the trace of its effects with their answers.
-/
import UpgradeBridge.Network
import UpgradeBridge.Note

namespace UpgradeBridge

/-- Something a program asks of its surroundings. -/
inductive Effect
  /-- A call on the response channel. -/
  | call (call : Call)
  /-- Sends octets to the client on the connection taken over last. -/
  | transmit (data : Bytes)
  /-- Connects to a host, within a number of milliseconds. -/
  | dial (host : String) (timeout : Nat)
  /-- Sends octets to the backend. -/
  | forward (data : Bytes)
  /-- Copies between the client and the backend until both have closed. -/
  | relay (connection : Connection)
  /-- Notes something down. -/
  | note (place : Place) (note : Note)

/-- The answer to an effect. -/
abbrev Effect.Reply : Effect → Type
  | .call c => c.Reply
  | .transmit _ => Except IoError Nat
  | .dial _ _ => Dial
  | .forward _ => Except IoError Unit
  | .relay _ => Relay
  | .note _ _ => Unit

/-- A program that returns an `α`. -/
inductive Program (α : Type) : Type
  | returns (value : α)
  /-- The program breaks off. -/
  | panics
  /-- The program waits for ever. -/
  | stalls
  | perform (effect : Effect) (next : effect.Reply → Program α)

namespace Program

variable {α β : Type}

/-- Goes on with what a program returns. -/
def bind : Program α → (α → Program β) → Program β
  | returns value, f => f value
  | panics, _ => panics
  | stalls, _ => stalls
  | perform effect next, f => perform effect fun reply => (next reply).bind f

instance : Monad Program where
  pure := returns
  bind := bind

/-- One call on the response channel. -/
def call (c : Call) : Program c.Reply :=
  perform (.call c) returns

/-- Sends octets to the client on the connection taken over last. -/
def transmit (data : Bytes) : Program (Except IoError Nat) :=
  perform (.transmit data) returns

/-- Connects to a host. -/
def dial (host : String) (timeout : Nat) : Program Dial :=
  perform (.dial host timeout) returns

/-- Sends octets to the backend. -/
def forward (data : Bytes) : Program (Except IoError Unit) :=
  perform (.forward data) returns

/-- Copies between the client and the backend. -/
def relay (connection : Connection) : Program Relay :=
  perform (.relay connection) returns

/-- Notes something down. -/
def note (place : Place) (n : Note) : Program Unit :=
  perform (.note place n) returns

end Program

/-- What a program runs against: a response channel and a network. -/
structure World (σ : Type) where
  channel : Channel σ
  network : Network

/-- Answers an effect. What a relay brings from the backend is sent to the client. -/
def World.answer {σ : Type} (w : World σ) : (effect : Effect) → σ → Step σ effect.Reply
  | .call c, s => w.channel.perform c s
  | .transmit data, s =>
    let (reply, s) := w.channel.transmit data s
    .replied reply s
  | .dial host timeout, s => .replied (w.network.dial host timeout) s
  | .forward data, s => .replied (w.network.forward data) s
  | .relay connection, s =>
    match w.network.relay connection with
    | some copied => .replied copied (w.channel.transmit copied.received s).2
    | none => .waits s
  | .note _ _, s => .replied () s

/-- How a run ended. -/
inductive Outcome (α : Type)
  | returned (value : α)
  | panicked
  /-- The program waits for something that never comes. -/
  | pending
  deriving DecidableEq, Repr

/-- An effect and its answer. -/
abbrev Exchanged := (effect : Effect) × effect.Reply

/-- What became of a program. -/
structure Run (σ α : Type) where
  outcome : Outcome α
  /-- The state of the channel at the end. -/
  state : σ
  /-- The effects that were answered, in order. -/
  trace : List Exchanged

namespace Program

/-- Runs a program from a state of the channel. -/
def run {σ α : Type} (w : World σ) : Program α → σ → Run σ α
  | returns value, s => ⟨.returned value, s, []⟩
  | panics, s => ⟨.panicked, s, []⟩
  | stalls, s => ⟨.pending, s, []⟩
  | perform effect next, s =>
    match w.answer effect s with
    | .waits s => ⟨.pending, s, []⟩
    | .replied reply s =>
      let rest := (next reply).run w s
      { rest with trace := ⟨effect, reply⟩ :: rest.trace }

end Program

namespace Run

variable {σ α : Type}

/-- What was noted down, in order. -/
def notes (r : Run σ α) : List (Place × Note) :=
  r.trace.filterMap fun
    | ⟨.note place n, _⟩ => some (place, n)
    | _ => none

/-- The hosts that were dialled, in order. -/
def dialled (r : Run σ α) : List String :=
  r.trace.filterMap fun
    | ⟨.dial host _, _⟩ => some host
    | _ => none

/-- What the backend received, in order: octets sent to it ahead, then what was copied. -/
def received (r : Run σ α) : Bytes :=
  r.trace.flatMap fun
    | ⟨.forward data, .ok _⟩ => data
    | ⟨.relay connection, copied⟩ => copied.toBackend connection
    | _ => []

/-- The client's connection was taken over. -/
def tookOver (r : Run σ α) : Bool :=
  r.trace.any fun
    | ⟨.call .hijack, .ok _⟩ => true
    | _ => false

end Run

end UpgradeBridge
