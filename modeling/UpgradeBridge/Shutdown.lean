/-
The shutdown signal: any handle triggers it, and every receiver that subscribed
before gets it.

Signals are counted, and a receiver keeps the count up to which it has read.
Only the newest signal is held for a receiver: one that missed more than one
learns how many, and then reads the newest. A trigger that no receiver is there
for is not counted.
-/
namespace UpgradeBridge

/-- The handles and receivers that descend from one shutdown. Both are numbered as they were made,
and those dropped keep their numbers. -/
structure Shutdown where
  /-- The signals sent so far. -/
  sent : Nat := 0
  /-- Which handles are there. -/
  handles : List Bool := [true]
  /-- How many signals each receiver has behind it; none for one that was dropped. -/
  receivers : List (Option Nat) := []
  deriving DecidableEq, Repr

namespace Shutdown

/-- What a receiver is told. -/
inductive Reception
  | signal
  /-- There is nothing to read yet. -/
  | empty
  /-- There will be nothing to read any more. -/
  | closed
  /-- Signals were missed. -/
  | lagged (missed : Nat)
  deriving DecidableEq, Repr

/-- The handle is there. -/
def hasHandle (s : Shutdown) (handle : Nat) : Bool :=
  s.handles.getD handle false

/-- Some handle is there. -/
def isOpen (s : Shutdown) : Bool :=
  s.handles.contains true

/-- A new receiver, and its number. It sees later signals only. -/
def subscribe (s : Shutdown) (handle : Nat) : Option (Nat × Shutdown) :=
  if s.hasHandle handle then
    some (s.receivers.length, { s with receivers := s.receivers ++ [some s.sent] })
  else none

/-- A new handle, and its number. -/
def clone (s : Shutdown) (handle : Nat) : Option (Nat × Shutdown) :=
  if s.hasHandle handle then some (s.handles.length, { s with handles := s.handles ++ [true] })
  else none

/-- Sends a signal to the receivers that are there. -/
def trigger (s : Shutdown) (handle : Nat) : Option Shutdown :=
  if s.hasHandle handle then
    some (if s.receivers.any Option.isSome then { s with sent := s.sent + 1 } else s)
  else none

/-- Drops a handle, and tells whether it was there. -/
def dropHandle (s : Shutdown) (handle : Nat) : Bool × Shutdown :=
  (s.hasHandle handle, { s with handles := s.handles.set handle false })

/-- Drops a receiver, and tells whether it was there. -/
def dropReceiver (s : Shutdown) (receiver : Nat) : Bool × Shutdown :=
  ((s.receivers.getD receiver none).isSome, { s with receivers := s.receivers.set receiver none })

/-- Reads for a receiver, without waiting. -/
def receive (s : Shutdown) (receiver : Nat) : Option (Reception × Shutdown) :=
  match s.receivers.getD receiver none with
  | none => none
  | some read =>
    match s.sent - read with
    | 0 => some (if s.isOpen then .empty else .closed, s)
    | 1 => some (.signal, { s with receivers := s.receivers.set receiver (some s.sent) })
    | missed + 1 =>
      some (.lagged missed, { s with receivers := s.receivers.set receiver (some (s.sent - 1)) })

/-- One step on a handle or a receiver. -/
inductive Move
  | subscribe (handle : Nat)
  | clone (handle : Nat)
  | trigger (handle : Nat)
  | dropHandle (handle : Nat)
  | dropReceiver (receiver : Nat)
  | receive (receiver : Nat)
  deriving DecidableEq, Repr

/-- What came of a step. -/
inductive Result
  /-- The number of a new handle or receiver. -/
  | number (n : Nat)
  | triggered
  | dropped (present : Bool)
  | received (reception : Reception)
  /-- The handle or receiver is not there. -/
  | absent
  deriving DecidableEq, Repr

/-- One step. -/
def step (s : Shutdown) : Move → Result × Shutdown
  | .subscribe handle =>
    match s.subscribe handle with
    | some (n, s) => (.number n, s)
    | none => (.absent, s)
  | .clone handle =>
    match s.clone handle with
    | some (n, s) => (.number n, s)
    | none => (.absent, s)
  | .trigger handle =>
    match s.trigger handle with
    | some s => (.triggered, s)
    | none => (.absent, s)
  | .dropHandle handle =>
    let (present, s) := s.dropHandle handle
    (.dropped present, s)
  | .dropReceiver receiver =>
    let (present, s) := s.dropReceiver receiver
    (.dropped present, s)
  | .receive receiver =>
    match s.receive receiver with
    | some (reception, s) => (.received reception, s)
    | none => (.absent, s)

end Shutdown

end UpgradeBridge
