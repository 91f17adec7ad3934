/-
What the moves of a run say of its handles and receivers, without the run itself.

A `Roster` numbers what the moves make and tells which of it is there, so that a
move on a handle that is there can be told from one that comes to nothing. With
that a receiver can tell six kinds of events apart: handles that come and go,
signals, and its own subscription, reads and end. An `Account` of these counts
the handles that are left and the signals that the receiver has not read. What
other receivers do is no event of it.
-/
import Mathlib.Data.Finset.Basic
import Mathlib.Data.List.GetD
import Mathlib.Data.List.Induction
import UpgradeBridge.Shutdown

namespace UpgradeBridge.Shutdown

/-! ## Who is there -/

/-- Things that are numbered as they are made: how many were made, and which of them are there. -/
structure Roster where
  made : Nat
  present : Finset Nat

namespace Roster

/-- One more is made. -/
def add (r : Roster) : Roster :=
  ⟨r.made + 1, insert r.made r.present⟩

/-- One is dropped. -/
def drop (r : Roster) (n : Nat) : Roster :=
  ⟨r.made, r.present.erase n⟩

/-- A flag for each that was made tells whether it is there. -/
structure Lists (r : Roster) (flags : List Bool) : Prop where
  made : r.made = flags.length
  mem_iff : ∀ n, n ∈ r.present ↔ flags.getD n false = true

theorem Lists.add {r : Roster} {flags : List Bool} (h : r.Lists flags) :
    r.add.Lists (flags ++ [true]) := by
  refine ⟨by simp [Roster.add, h.made], fun n => ?_⟩
  rw [Roster.add, Finset.mem_insert, h.made, h.mem_iff]
  rcases Nat.lt_trichotomy n flags.length with hlt | rfl | hlt
  · rw [List.getD_append _ _ _ _ hlt]
    simp [Nat.ne_of_lt hlt]
  · simp
  · have hle : flags.length + 1 ≤ n := hlt
    rw [List.getD_eq_default flags _ (by omega), List.getD_eq_default _ _ (by simpa using hle)]
    simp [Nat.ne_of_gt hlt]

theorem Lists.drop {r : Roster} {flags : List Bool} (h : r.Lists flags) (n : Nat) :
    (r.drop n).Lists (flags.set n false) := by
  refine ⟨by simp [Roster.drop, h.made], fun k => ?_⟩
  rw [Roster.drop, Finset.mem_erase, h.mem_iff]
  simp only [List.getD_eq_getElem?_getD, List.getElem?_set]
  by_cases hkn : n = k
  · subst hkn
    by_cases hlt : n < flags.length <;> simp [hlt]
  · simp [hkn, Ne.symm hkn]

end Roster

/-- The handles and receivers of a run. There is one handle to begin with. -/
structure Attendance where
  handles : Roster := ⟨1, {0}⟩
  receivers : Roster := ⟨0, ∅⟩

namespace Attendance

/-- Who is there after one more move. Only a handle that is there makes another one, or a receiver. -/
def enter (a : Attendance) : Move → Attendance
  | .subscribe handle =>
    if handle ∈ a.handles.present then { a with receivers := a.receivers.add } else a
  | .clone handle =>
    if handle ∈ a.handles.present then { a with handles := a.handles.add } else a
  | .dropHandle handle => { a with handles := a.handles.drop handle }
  | .dropReceiver receiver => { a with receivers := a.receivers.drop receiver }
  | .trigger _ | .receive _ => a

/-- A receiver stays until it is dropped. -/
theorem mem_receivers_foldl {a : Attendance} {i : Nat} (h : i ∈ a.receivers.present)
    {moves : List Move} (hmoves : .dropReceiver i ∉ moves) :
    i ∈ (moves.foldl enter a).receivers.present := by
  induction moves generalizing a with
  | nil => exact h
  | cons m moves ih =>
    rw [List.mem_cons, not_or] at hmoves
    refine ih ?_ hmoves.2
    cases m with
    | subscribe handle =>
      rw [enter]
      split
      · exact Finset.mem_insert_of_mem h
      · exact h
    | clone handle =>
      rw [enter]
      split <;> exact h
    | dropReceiver receiver =>
      refine Finset.mem_erase_of_ne_of_mem ?_ h
      rintro rfl
      exact hmoves.1 rfl
    | _ => exact h

end Attendance

/-- The handles and receivers after some moves. -/
def attendance (moves : List Move) : Attendance :=
  moves.foldl Attendance.enter {}

/-! ## Accounts -/

/-- What a receiver can tell of a run. -/
inductive Event
  | cloned
  | handleDropped
  | triggered
  | subscribed
  | read
  | receiverDropped
  deriving DecidableEq, Repr

/-- What a receiver can tell of a move while these are there. A move on a handle or a receiver that is
not there is nothing, and so is a move on another receiver. -/
def Attendance.event? (a : Attendance) (i : Nat) : Move → Option Event
  | .clone handle => if handle ∈ a.handles.present then some .cloned else none
  | .dropHandle handle => if handle ∈ a.handles.present then some .handleDropped else none
  | .trigger handle => if handle ∈ a.handles.present then some .triggered else none
  | .subscribe handle =>
    if handle ∈ a.handles.present ∧ a.receivers.made = i then some .subscribed else none
  | .receive receiver =>
    if receiver ∈ a.receivers.present ∧ receiver = i then some .read else none
  | .dropReceiver receiver =>
    if receiver ∈ a.receivers.present ∧ receiver = i then some .receiverDropped else none

/-- What a receiver can tell of moves from then on when these are there. -/
def Attendance.view (i : Nat) : Attendance → List Move → List Event
  | _, [] => []
  | a, m :: moves => (a.event? i m).toList ++ (a.enter m).view i moves

/-- What a receiver can tell of a run. -/
def view (i : Nat) (moves : List Move) : List Event :=
  ({} : Attendance).view i moves

/-- The handles that are left, and the signals that a receiver which is there has not read. -/
structure Account where
  handles : Nat := 1
  unread : Option Nat := none
  deriving DecidableEq, Repr

namespace Account

/-- How many signals are unread after a read. A receiver that missed some is left with the newest. -/
def afterRead : Nat → Nat
  | 0 => 0
  | 1 => 0
  | _ + 2 => 1

/-- The account after one more event. -/
def enter (a : Account) : Event → Account
  | .cloned => { a with handles := a.handles + 1 }
  | .handleDropped => { a with handles := a.handles - 1 }
  | .triggered => { a with unread := a.unread.map (· + 1) }
  | .subscribed => { a with unread := some 0 }
  | .read => { a with unread := a.unread.map afterRead }
  | .receiverDropped => { a with unread := none }

/-- The account of some events. -/
def ofEvents (events : List Event) : Account :=
  events.foldl enter {}

/-- What a read is answered by. -/
def answer (a : Account) : Result :=
  match a.unread with
  | none => .absent
  | some 0 => .received (if a.handles = 0 then .closed else .empty)
  | some 1 => .received .signal
  | some (n + 2) => .received (.lagged (n + 1))

/-- The account after a move, of which there may be nothing to enter. -/
def record (a : Account) (event : Option Event) : Account :=
  event.elim a a.enter

@[simp] theorem record_none (a : Account) : a.record none = a := rfl
@[simp] theorem record_some (a : Account) (event : Event) : a.record (some event) = a.enter event := rfl

end Account

/-- The account that a receiver has of some moves. -/
def account (i : Nat) (moves : List Move) : Account :=
  .ofEvents (view i moves)

theorem attendance_snoc (moves : List Move) (m : Move) :
    attendance (moves ++ [m]) = (attendance moves).enter m :=
  List.foldl_append

theorem Attendance.view_append (i : Nat) (moves more : List Move) : ∀ a : Attendance,
    a.view i (moves ++ more) = a.view i moves ++ (moves.foldl enter a).view i more := by
  induction moves with
  | nil => exact fun _ => rfl
  | cons m moves ih =>
    intro a
    rw [List.cons_append, view, view, ih, List.append_assoc, List.foldl_cons]

theorem account_snoc (i : Nat) (moves : List Move) (m : Move) :
    account i (moves ++ [m]) = (account i moves).record ((attendance moves).event? i m) := by
  have hview : view i (moves ++ [m]) = view i moves ++ ((attendance moves).event? i m).toList := by
    rw [view, Attendance.view_append, Attendance.view, Attendance.view, List.append_nil]
    rfl
  rw [account, hview, account, Account.ofEvents, List.foldl_append]
  cases (attendance moves).event? i m <;> rfl

/-! ## What comes of a move -/

/-- What comes of a move after others, as these tell it. -/
def comesOf (moves : List Move) : Move → Result
  | .subscribe handle =>
    if handle ∈ (attendance moves).handles.present then .number (attendance moves).receivers.made
    else .absent
  | .clone handle =>
    if handle ∈ (attendance moves).handles.present then .number (attendance moves).handles.made
    else .absent
  | .trigger handle => if handle ∈ (attendance moves).handles.present then .triggered else .absent
  | .dropHandle handle => .dropped (handle ∈ (attendance moves).handles.present)
  | .dropReceiver receiver => .dropped (receiver ∈ (attendance moves).receivers.present)
  | .receive receiver => (account receiver moves).answer

end UpgradeBridge.Shutdown
