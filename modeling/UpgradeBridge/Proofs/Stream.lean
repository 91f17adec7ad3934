/-
The channel's side of a streamed response, operation by operation: what a
commit does, what the other calls leave alone, and what is fixed for good once
a status is committed (`SameHead`, `run_sameHead`).
-/
import UpgradeBridge.Channel.Exchange
import UpgradeBridge.Proofs.Conversation

namespace UpgradeBridge

/-- What a hijack gets that awaits a handle. -/
def UpgradeHandle.outcome : UpgradeHandle → Except ChannelError Hijacked
  | .fails reason => .error (.upgrade reason)
  | .opens hijacked => .ok hijacked

namespace Stream

variable {α : Type}

/-! ## Calls -/

/-- A commit on a stream that can still hand its head over. -/
theorem writeStatus_of_headSender {s : Stream} (h : s.headSender = true) (status : Status) :
    s.writeStatus status = { s with
      headers := ∅
      headSender := false
      bodySender := status.allowsBody
      status := some status
      slot := if s.slot = .empty then .ready ⟨status, s.headers⟩ else s.slot
      reader := if s.slot = .empty then .waiting else .gone } := by
  simp [writeStatus, h]

theorem writeStatus_of_spent {s : Stream} (h : s.headSender = false) (status : Status) :
    s.writeStatus status = s := by
  simp [writeStatus, h]

theorem commitIfNeeded_of_committed {s : Stream} (h : s.isCommitted = true) :
    s.commitIfNeeded = s := by
  simp [commitIfNeeded, h]

theorem commitIfNeeded_of_not_committed {s : Stream} (h : s.isCommitted = false) :
    s.commitIfNeeded = s.writeStatus .ok := by
  simp [commitIfNeeded, h]

/-- Putting a chunk into the queue changes the queue only. -/
theorem push_state (data : Bytes) (s : Stream) :
    ∃ queue, (s.push data).state = { s with queue := queue } := by
  unfold push
  split
  · split
    · exact ⟨s.queue, rfl⟩
    · split
      · exact ⟨_, rfl⟩
      · exact ⟨s.queue, rfl⟩
  · split <;> exact ⟨s.queue, rfl⟩

theorem hijack_of_not_committed {s : Stream} (h : s.isCommitted = false) :
    s.hijack = .replied (.error .notCommitted) s := by
  simp [hijack, h]

/-- A hijack after the commit takes the handle, releases the sender of the body, and comes to whatever
the handle comes to. -/
theorem hijack_of_handle {s : Stream} (hs : s.isCommitted = true) {handle : UpgradeHandle}
    (hupgrade : s.upgrade = some handle) :
    s.hijack = .replied handle.outcome { s with upgrade := none, bodySender := false } := by
  cases handle <;> simp [hijack, hs, hupgrade, UpgradeHandle.outcome]

/-- A hijack changes the handle and the sender of the body only. -/
theorem hijack_state (s : Stream) :
    ∃ upgrade bodySender, s.hijack.state = { s with upgrade := upgrade, bodySender := bodySender } := by
  unfold hijack
  split
  · split
    · exact ⟨s.upgrade, s.bodySender, rfl⟩
    · exact ⟨none, false, rfl⟩
    · exact ⟨none, false, rfl⟩
  · exact ⟨s.upgrade, s.bodySender, rfl⟩

/-! ## Committed streams -/

/-- A status is committed, and the head was handed over with it. -/
structure Settled (s : Stream) : Prop where
  committed : s.isCommitted = true
  spent : s.headSender = false

/-- What a commit fixed is the same in two streams. -/
structure SameHead (s t : Stream) : Prop where
  headSender : t.headSender = s.headSender
  status : t.status = s.status
  slot : t.slot = s.slot
  reader : t.reader = s.reader

theorem SameHead.refl (s : Stream) : SameHead s s :=
  ⟨rfl, rfl, rfl, rfl⟩

theorem SameHead.trans {s t u : Stream} (h : SameHead s t) (h' : SameHead t u) : SameHead s u :=
  ⟨h'.headSender.trans h.headSender, h'.status.trans h.status, h'.slot.trans h.slot,
    h'.reader.trans h.reader⟩

theorem SameHead.settled {s t : Stream} (h : SameHead s t) (hs : s.Settled) : t.Settled :=
  ⟨by rw [isCommitted, h.status]; exact hs.committed, h.headSender.trans hs.spent⟩

/-- No call changes what a commit fixed. -/
theorem perform_sameHead {s : Stream} (h : s.Settled) (c : Call) :
    SameHead s (channel.perform c s).state := by
  cases c with
  | headers => exact .refl s
  | edit e => exact ⟨rfl, rfl, rfl, rfl⟩
  | writeStatus status =>
    rw [show (channel.perform (.writeStatus status) s).state = s.writeStatus status from rfl,
      writeStatus_of_spent h.spent]
    exact .refl s
  | write data =>
    rw [show (channel.perform (.write data) s).state = (s.commitIfNeeded.push data).state from rfl,
      commitIfNeeded_of_committed h.committed]
    obtain ⟨queue, hpush⟩ := s.push_state data
    rw [hpush]
    exact ⟨rfl, rfl, rfl, rfl⟩
  | capabilities => exact .refl s
  | flush =>
    rw [show (channel.perform .flush s).state = s.commitIfNeeded from rfl,
      commitIfNeeded_of_committed h.committed]
    exact .refl s
  | hijack =>
    obtain ⟨upgrade, bodySender, hhijack⟩ := s.hijack_state
    rw [show (channel.perform .hijack s).state = s.hijack.state from rfl, hhijack]
    exact ⟨rfl, rfl, rfl, rfl⟩

theorem answer_sameHead {s : Stream} (h : s.Settled) (n : Network) (effect : Effect) :
    SameHead s (World.answer ⟨channel, n⟩ effect s).state := by
  cases effect with
  | call c => exact perform_sameHead h c
  | transmit data => exact ⟨rfl, rfl, rfl, rfl⟩
  | relay connection =>
    simp only [World.answer]
    split
    · exact ⟨rfl, rfl, rfl, rfl⟩
    · exact .refl s
  | _ => exact .refl s

/-- **What a commit fixed stays**, whatever a program does after it. -/
theorem run_sameHead {n : Network} (q : Program α) {s : Stream} (h : s.Settled) :
    SameHead s (q.run ⟨channel, n⟩ s).state := by
  refine (Program.only_of_forall (fun _ => trivial) q).run (SameHead s) ?_ (.refl s)
  exact fun effect t _ ht => ht.trans (answer_sameHead (ht.settled h) n effect)

end Stream

/-! ## Actions -/

namespace Action

/-- The status that an action commits if none was committed before: its own, or 200 where octets or
a flush come first. -/
def commit? : Action → Option Status
  | .status code => some code
  | .write _ | .flush => some .ok
  | _ => none

/-- What an action makes of the staged header fields if nothing was committed before. -/
def stage (h : Headers) : Action → Headers
  | .set name value => h.insert name value
  | .append name value => h.append name value
  | .remove name => h.remove name
  | _ => h

end Action

namespace Stream

/-- Before the commit, an action that does not commit changes the staged header fields at most. -/
theorem run_action_of_not_committed {s : Stream} (h : s.isCommitted = false) {a : Action}
    (ha : a.commit? = none) : (a.program.run Exchange.world s).state =
      { s with headers := a.stage s.headers } := by
  cases a with
  | hijack send =>
    have hanswer : Exchange.world.answer (.call .hijack) s = .replied (.error .notCommitted) s :=
      hijack_of_not_committed h
    simp only [Action.program, bind, Program.bind, Program.call]
    rw [Program.run_perform_replied _ hanswer]
    rfl
  | status | write | flush => cases ha
  | _ => rfl

/-- An action that commits does what the commit does, and may put a chunk into the queue. -/
theorem run_action_of_commit {s : Stream} (h : s.isCommitted = false) {a : Action} {status : Status}
    (ha : a.commit? = some status) : ∃ queue, (a.program.run Exchange.world s).state =
      { s.writeStatus status with queue := queue } := by
  cases a with
  | status status' =>
    cases ha
    exact ⟨_, rfl⟩
  | write data =>
    cases ha
    obtain ⟨queue, hpush⟩ := (s.writeStatus .ok).push_state data
    refine ⟨queue, ?_⟩
    rw [← hpush, ← commitIfNeeded_of_not_committed h]
    simp only [Action.program, bind, Program.bind, Program.call]
    cases hanswer : Exchange.world.answer (.call (.write data)) s with
    | replied reply t =>
      rw [Program.run_perform_replied _ hanswer, show s.commitIfNeeded.push data = _ from hanswer]
      rfl
    | waits t =>
      rw [Program.run_perform_waits _ hanswer, show s.commitIfNeeded.push data = _ from hanswer]
      rfl
  | flush =>
    cases ha
    refine ⟨(s.writeStatus .ok).queue, ?_⟩
    rw [← commitIfNeeded_of_not_committed h]
    rfl
  | _ => cases ha

end Stream

end UpgradeBridge
