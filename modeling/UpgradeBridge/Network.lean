/-
What the network answers to a handler that connects to a backend: whether a
dial succeeds, whether octets can be sent, and what is copied between a client
and a backend until both have closed.

`Network` is an oracle: laws about handlers hold for whatever it answers.
-/
import UpgradeBridge.Channel

namespace UpgradeBridge

/-- How a dial ends. -/
inductive Dial
  | connected
  | failed (error : IoError)
  | timedOut
  deriving DecidableEq, Repr

/-- What was copied between a client and a backend by the time both had closed. -/
structure Relay where
  /-- How many of the octets that the client sent reached the backend. -/
  sent : Nat
  /-- What the backend sent to the client. -/
  received : Bytes
  deriving DecidableEq, Repr

/-- The octets of a connection that reached the backend. -/
def Relay.toBackend (r : Relay) (connection : Connection) : Bytes :=
  connection.incoming.take r.sent

/-- The answers of a network. -/
structure Network where
  /-- Connects to a host and port, within a number of milliseconds. -/
  dial : String → Nat → Dial
  /-- Sends octets to the backend connected to. -/
  forward : Bytes → Except IoError Unit
  /-- Copies between a client and the backend in both directions; none if this never ends. -/
  relay : Connection → Option Relay

end UpgradeBridge
