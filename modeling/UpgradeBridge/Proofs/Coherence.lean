/-
What holds of every stream and every exchange in the course of a run: how far the
slot of the head, the reader of the body, the queue and the status agree with one
another (`Coherent`), and that the channel's side can hand a head over exactly
until it has committed a status (`Attached`). Each call and each step of either
side keeps both.
-/
import UpgradeBridge.Proofs.Exchange

namespace UpgradeBridge

namespace Stream

/-- What holds of the queue, of its two ends and of the slot in every stream. -/
structure Coherent (s : Stream) : Prop where
  bounded : s.queue.length ≤ capacity
  unread : s.reader = .absent ∨ s.reader = .gone → s.queue = []
  absent : s.reader = .absent ↔ s.status = none
  sender : s.status = none → s.bodySender = false
  empty : s.slot = .empty → s.reader = .absent
  ready : ∀ head, s.slot = .ready head → s.reader = .waiting

/-- The channel's side can hand a head over until it has committed a status. -/
def Attached (s : Stream) : Prop :=
  s.headSender = true ↔ s.status = none

theorem Attached.settled {s : Stream} (h : s.Attached) (hs : s.status ≠ none) : s.Settled := by
  refine ⟨by simpa [isCommitted, Option.isSome_iff_ne_none] using hs, ?_⟩
  have hspent : s.headSender ≠ true := mt h.mp hs
  simpa using hspent

theorem Settled.status_ne_none {s : Stream} (h : s.Settled) : s.status ≠ none :=
  Option.isSome_iff_ne_none.mp h.committed

theorem Settled.attached {s : Stream} (h : s.Settled) : s.Attached := by
  simp [Attached, h.spent, h.status_ne_none]

theorem Coherent.status_ne_none {s : Stream} (h : s.Coherent) (hb : s.bodySender = true) :
    s.status ≠ none := by
  intro hnone
  simp [h.sender hnone] at hb

/-- A stream that differs in nothing that the body depends on. -/
theorem Coherent.of_eq {s t : Stream} (h : s.Coherent) (hqueue : t.queue = s.queue)
    (hreader : t.reader = s.reader) (hstatus : t.status = s.status) (hslot : t.slot = s.slot)
    (hsender : t.bodySender = s.bodySender) : t.Coherent := by
  constructor
  · rw [hqueue]
    exact h.bounded
  · rw [hreader, hqueue]
    exact h.unread
  · rw [hreader, hstatus]
    exact h.absent
  · rw [hstatus, hsender]
    exact h.sender
  · rw [hslot, hreader]
    exact h.empty
  · rw [hslot, hreader]
    exact h.ready

/-- The body is held by whoever has taken its head. -/
theorem Coherent.slot_of_held {s : Stream} (h : s.Coherent) (hheld : s.reader = .held) :
    s.slot ≠ .empty ∧ ∀ head, s.slot ≠ .ready head := by
  constructor
  · intro hslot
    have habsent := h.empty hslot
    simp [hheld] at habsent
  · intro head hslot
    have hwaiting := h.ready head hslot
    simp [hheld] at hwaiting

/-- Nothing but the queue and the sender of the body changes in a committed stream. -/
theorem Coherent.of_sameHead {s t : Stream} (h : s.Coherent) (hs : s.status ≠ none)
    (hsame : SameHead s t) (hbounded : t.queue.length ≤ capacity)
    (hunread : s.reader = .gone → t.queue = []) : t.Coherent := by
  have habsent : s.reader ≠ .absent := mt h.absent.mp hs
  constructor
  · exact hbounded
  · rw [hsame.reader]
    rintro (hreader | hreader)
    · exact absurd hreader habsent
    · exact hunread hreader
  · rw [hsame.reader, hsame.status]
    exact h.absent
  · rw [hsame.status]
    exact fun hnone => absurd hnone hs
  · rw [hsame.slot, hsame.reader]
    exact h.empty
  · rw [hsame.slot, hsame.reader]
    exact h.ready

/-- A committed stream that nobody can read from any more. -/
theorem Coherent.of_gone {s t : Stream} (h : s.Coherent) (hs : s.reader ≠ .absent)
    (hstatus : t.status = s.status) (hreader : t.reader = .gone) (hqueue : t.queue = [])
    (hslot : t.slot ≠ .empty ∧ ∀ head, t.slot ≠ .ready head) : t.Coherent := by
  have hne : t.status ≠ none := by
    rw [hstatus]
    exact mt h.absent.mpr hs
  constructor
  · simp [hqueue]
  · exact fun _ => hqueue
  · simp [hreader, hne]
  · exact fun hnone => absurd hnone hne
  · exact fun hempty => absurd hempty hslot.1
  · exact fun head hready => absurd hready (hslot.2 head)

/-! ## Calls -/

theorem coherent_writeStatus {s : Stream} (h : s.Coherent) (ha : s.Attached) (status : Status) :
    (s.writeStatus status).Coherent ∧ (s.writeStatus status).Attached := by
  cases hhead : s.headSender with
  | false =>
    rw [writeStatus_of_spent hhead]
    exact ⟨h, ha⟩
  | true =>
    have habsent : s.reader = .absent := h.absent.mpr (ha.mp hhead)
    have hempty : s.queue = [] := h.unread (.inl habsent)
    rw [writeStatus_of_headSender hhead]
    refine ⟨⟨by simp [hempty], fun _ => hempty, ?_, by simp, ?_, ?_⟩, by simp [Attached]⟩
    · by_cases hslot : s.slot = .empty <;> simp [hslot]
    · by_cases hslot : s.slot = .empty <;> simp [hslot]
    · intro head hready
      by_cases hslot : s.slot = .empty
      · simp [hslot]
      · simp only [hslot, if_false] at hready
        simp [h.ready head hready] at habsent

theorem coherent_commitIfNeeded {s : Stream} (h : s.Coherent) (ha : s.Attached) :
    s.commitIfNeeded.Coherent ∧ s.commitIfNeeded.Settled := by
  cases hs : s.isCommitted with
  | true =>
    rw [commitIfNeeded_of_committed hs]
    exact ⟨h, ha.settled (Option.isSome_iff_ne_none.mp hs)⟩
  | false =>
    rw [commitIfNeeded_of_not_committed hs]
    obtain ⟨hcoherent, hattached⟩ := coherent_writeStatus h ha .ok
    have hhead : s.headSender = true := ha.mpr (by simpa [isCommitted] using hs)
    refine ⟨hcoherent, hattached.settled ?_⟩
    rw [writeStatus_of_headSender hhead]
    simp

/-- How a write ends once a status is committed. -/
theorem push_cases {s : Stream} (hs : s.Settled) (data : Bytes) :
    (s.bodySender = false ∧
      ∃ status, s.status = some status ∧ s.push data = .replied (.error (.bodyNotAllowed status)) s) ∨
    (s.bodySender = true ∧ s.reader = .gone ∧ s.push data = .replied (.error .closed) s) ∨
    (s.bodySender = true ∧ s.reader ≠ .gone ∧ s.queue.length < capacity ∧
      s.push data = .replied (.ok data.length) { s with queue := s.queue ++ [data] }) ∨
    (s.bodySender = true ∧ s.reader ≠ .gone ∧ capacity ≤ s.queue.length ∧ s.push data = .waits s) := by
  obtain ⟨status, hstatus⟩ := Option.isSome_iff_exists.mp hs.committed
  cases hsender : s.bodySender with
  | false => exact .inl ⟨rfl, status, hstatus, by simp [push, hsender, hstatus]⟩
  | true =>
    by_cases hgone : s.reader = .gone
    · exact .inr (.inl ⟨rfl, hgone, by simp [push, hsender, hgone]⟩)
    · by_cases hroom : s.queue.length < capacity
      · exact .inr (.inr (.inl ⟨rfl, hgone, hroom, by simp [push, hsender, hgone, hroom]⟩))
      · exact .inr (.inr (.inr ⟨rfl, hgone, by omega, by simp [push, hsender, hgone, hroom]⟩))

theorem coherent_push {s : Stream} (h : s.Coherent) (hs : s.Settled) (data : Bytes) :
    (s.push data).state.Coherent ∧ (s.push data).state.Settled := by
  rcases push_cases hs data with ⟨-, _, -, hpush⟩ | ⟨-, -, hpush⟩ | ⟨-, hgone, hroom, hpush⟩ |
    ⟨-, -, -, hpush⟩ <;> rw [hpush]
  · exact ⟨h, hs⟩
  · exact ⟨h, hs⟩
  · refine ⟨h.of_sameHead hs.status_ne_none ⟨rfl, rfl, rfl, rfl⟩ ?_ fun hreader => ?_, hs.committed,
      hs.spent⟩
    · simp only [Step.state, List.length_append, List.length_singleton]
      omega
    · exact absurd hreader hgone
  · exact ⟨h, hs⟩

/-- Every call keeps a stream coherent. -/
theorem coherent_perform {s : Stream} (h : s.Coherent) (ha : s.Attached) (c : Call) :
    (channel.perform c s).state.Coherent ∧ (channel.perform c s).state.Attached := by
  cases c with
  | headers | capabilities => exact ⟨h, ha⟩
  | edit e => exact ⟨h.of_eq rfl rfl rfl rfl rfl, ha⟩
  | writeStatus status => exact coherent_writeStatus h ha status
  | write data =>
    obtain ⟨hcommitted, hsettled⟩ := coherent_commitIfNeeded h ha
    obtain ⟨hcoherent, hsettled⟩ := coherent_push hcommitted hsettled data
    exact ⟨hcoherent, hsettled.attached⟩
  | flush =>
    obtain ⟨hcoherent, hsettled⟩ := coherent_commitIfNeeded h ha
    exact ⟨hcoherent, hsettled.attached⟩
  | hijack =>
    rw [show (channel.perform .hijack s).state = s.hijack.state from rfl]
    cases hs : s.isCommitted with
    | false =>
      rw [hijack_of_not_committed hs]
      exact ⟨h, ha⟩
    | true =>
      have hne : s.status ≠ none := Option.isSome_iff_ne_none.mp hs
      obtain ⟨upgrade, bodySender, hstate⟩ := s.hijack_state
      rw [hstate]
      refine ⟨h.of_sameHead hne ⟨rfl, rfl, rfl, rfl⟩ h.bounded fun hgone => ?_, ha⟩
      exact h.unread (.inr hgone)

theorem coherent_answer {s : Stream} (h : s.Coherent) (ha : s.Attached) (n : Network)
    (effect : Effect) : (World.answer ⟨channel, n⟩ effect s).state.Coherent ∧
      (World.answer ⟨channel, n⟩ effect s).state.Attached := by
  have hsent : ∀ sent, { s with sent := sent }.Coherent ∧ { s with sent := sent }.Attached :=
    fun _ => ⟨h.of_eq rfl rfl rfl rfl rfl, ha⟩
  cases effect with
  | call c => exact coherent_perform h ha c
  | transmit data => exact hsent _
  | relay connection =>
    simp only [World.answer]
    split
    · exact hsent _
    · exact ⟨h, ha⟩
  | _ => exact ⟨h, ha⟩

end Stream

namespace Exchange

/-- What holds in the course of every run. -/
structure Coherent (e : Exchange) : Prop where
  stream : e.stream.Coherent
  attached : e.present = true → e.stream.Attached

theorem coherent_start (upgrade : Option UpgradeHandle) : (start upgrade).Coherent :=
  ⟨⟨by simp [start], fun _ => rfl, by simp [start], fun _ => rfl, fun _ => rfl, by simp [start]⟩,
    fun _ => by simp [start, Stream.Attached]⟩

theorem Coherent.act {e : Exchange} (h : e.Coherent) (a : Action) : (e.act a).2.Coherent := by
  cases hp : e.present with
  | false =>
    rw [act_of_not_present hp]
    exact h
  | true =>
    have hrun := (Program.only_of_forall (fun _ => trivial) a.program).run (w := world)
      (fun s => s.Coherent ∧ s.Attached)
      (fun effect _ _ hs => Stream.coherent_answer hs.1 hs.2 world.network effect)
      ⟨h.stream, h.attached hp⟩
    rw [(act_of_present hp a).1]
    exact ⟨hrun.1, fun _ => hrun.2⟩

theorem Coherent.takeHead {e : Exchange} (h : e.Coherent) : e.takeHead.2.Coherent := by
  obtain ⟨hstream, hattached⟩ := h
  simp only [Exchange.takeHead]
  split
  · next head hslot =>
    have hne : e.stream.status ≠ none := by
      rw [ne_eq, ← hstream.absent, hstream.ready head hslot]
      simp
    exact ⟨⟨hstream.bounded, by simp, by simp [hne], hstream.sender, by simp, by simp⟩, hattached⟩
  all_goals exact ⟨hstream, hattached⟩

theorem Coherent.read {e : Exchange} (h : e.Coherent) : e.read.2.Coherent := by
  obtain ⟨hstream, hattached⟩ := h
  simp only [Exchange.read, beq_iff_eq]
  split
  · next hheld =>
    have hslot := hstream.slot_of_held hheld
    split
    · next data rest hqueue =>
      have hbounded := hstream.bounded
      rw [hqueue, List.length_cons] at hbounded
      have hrest : rest.length ≤ Stream.capacity := by omega
      exact ⟨⟨hrest, by simp [hheld], hstream.absent, hstream.sender, hstream.empty, hstream.ready⟩,
        hattached⟩
    · next hqueue =>
      split
      · exact ⟨hstream, hattached⟩
      · exact ⟨hstream.of_gone (by simp [hheld]) rfl rfl hqueue hslot, hattached⟩
  · exact ⟨hstream, hattached⟩

theorem Coherent.dropHead {e : Exchange} (h : e.Coherent) : e.dropHead.2.Coherent := by
  obtain ⟨hstream, hattached⟩ := h
  simp only [Exchange.dropHead]
  split
  · exact ⟨hstream, hattached⟩
  · next head hslot =>
    have hreader : e.stream.reader ≠ .absent := by
      rw [hstream.ready head hslot]
      simp
    exact ⟨hstream.of_gone hreader rfl rfl rfl (by simp), hattached⟩
  · exact ⟨⟨hstream.bounded, hstream.unread, hstream.absent, hstream.sender, by simp, by simp⟩,
      hattached⟩

theorem Coherent.dropBody {e : Exchange} (h : e.Coherent) : e.dropBody.2.Coherent := by
  obtain ⟨hstream, hattached⟩ := h
  simp only [Exchange.dropBody, beq_iff_eq]
  split
  · next hheld =>
    have hslot := hstream.slot_of_held hheld
    exact ⟨hstream.of_gone (by simp [hheld]) rfl rfl rfl hslot, hattached⟩
  · exact ⟨hstream, hattached⟩

theorem Coherent.step {e : Exchange} (h : e.Coherent) (m : Move) : (e.step m).2.Coherent := by
  cases m with
  | act a => exact h.act a
  | takeHead => exact h.takeHead
  | read => exact h.read
  | dropHead => exact h.dropHead
  | dropBody => exact h.dropBody
  | dropChannel =>
    obtain ⟨hstream, -⟩ := h
    exact ⟨⟨hstream.bounded, hstream.unread, hstream.absent, fun _ => rfl, hstream.empty,
      hstream.ready⟩, fun hpresent => by cases hpresent⟩

theorem Coherent.after {e : Exchange} (h : e.Coherent) (moves : List Move) :
    (e.after moves).Coherent := by
  induction moves generalizing e with
  | nil => exact h
  | cons m moves ih => exact ih (h.step m)

end Exchange

end UpgradeBridge
