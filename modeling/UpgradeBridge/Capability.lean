/-
What a response channel may offer beyond headers, a status and a body.
-/
namespace UpgradeBridge

/-- Something a response channel may be able to do. -/
inductive Capability
  /-- Pushing what was staged to the client. -/
  | flush
  /-- Handing over the connection. -/
  | hijack
  deriving DecidableEq, Repr

/-- The word for a capability. -/
def Capability.text : Capability → String
  | flush => "flush"
  | hijack => "hijack"

/-- What a channel is able to do. -/
structure Capabilities where
  flush : Bool := false
  hijack : Bool := false
  deriving DecidableEq, Repr

namespace Capabilities

/-- Every capability. -/
def all : Capabilities := ⟨true, true⟩

/-- The first capability that is absent; a flush is asked for before a hijack. -/
def missing (c : Capabilities) : Option Capability :=
  if !c.flush then some .flush else if !c.hijack then some .hijack else none

end Capabilities

end UpgradeBridge
