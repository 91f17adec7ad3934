/-
The body of a streamed response, in runs of both sides: the chunks of the writes
that succeeded are those that were read, then those in the queue, and at most
sixteen wait there (`step_conserves`, `after_conserves`).

Whoever holds the two ends decides the rest. While the channel's side holds its
sender, a write waits for room and a read for a chunk. A hijack or the end of the
channel's side releases the sender: then no write waits or succeeds, and the
reader gets what is left in the queue and after it the end of the body. Without
a reader the queue is empty and no write succeeds.
-/
import UpgradeBridge.Proofs.Coherence

namespace UpgradeBridge

namespace Stream

theorem writeStatus_queue (s : Stream) (status : Status) : (s.writeStatus status).queue = s.queue := by
  unfold writeStatus
  split <;> rfl

theorem commitIfNeeded_queue (s : Stream) : s.commitIfNeeded.queue = s.queue := by
  unfold commitIfNeeded
  split
  · rfl
  · exact s.writeStatus_queue .ok

/-- Only a write puts anything into the queue. -/
theorem answer_queue (s : Stream) (n : Network) {effect : Effect}
    (hwrite : ∀ data, effect ≠ .call (.write data)) :
    (World.answer ⟨channel, n⟩ effect s).state.queue = s.queue := by
  cases effect with
  | call c =>
    cases c with
    | write data => exact absurd rfl (hwrite data)
    | writeStatus status => exact s.writeStatus_queue status
    | flush => exact s.commitIfNeeded_queue
    | hijack =>
      obtain ⟨upgrade, bodySender, hstate⟩ := s.hijack_state
      show s.hijack.state.queue = s.queue
      rw [hstate]
    | _ => rfl
  | relay connection =>
    simp only [World.answer]
    split <;> rfl
  | _ => rfl

/-- Once a status is committed, only a hijack changes who holds the sender of the body. -/
theorem answer_bodySender {s : Stream} (hs : s.Settled) (n : Network) {effect : Effect}
    (hhijack : effect ≠ .call .hijack) :
    (World.answer ⟨channel, n⟩ effect s).state.bodySender = s.bodySender := by
  cases effect with
  | call c =>
    cases c with
    | write data =>
      obtain ⟨queue, hpush⟩ := s.push_state data
      show (s.commitIfNeeded.push data).state.bodySender = s.bodySender
      rw [commitIfNeeded_of_committed hs.committed, hpush]
    | writeStatus status =>
      show (s.writeStatus status).bodySender = s.bodySender
      rw [writeStatus_of_spent hs.spent]
    | flush =>
      show s.commitIfNeeded.bodySender = s.bodySender
      rw [commitIfNeeded_of_committed hs.committed]
    | hijack => exact absurd rfl hhijack
    | _ => rfl
  | relay connection =>
    simp only [World.answer]
    split <;> rfl
  | _ => rfl

/-- A hijack after the commit does nothing without a handle, and releases the sender with one. -/
theorem hijack_of_committed {s : Stream} (hs : s.isCommitted = true) :
    (s.upgrade = none ∧ s.hijack = .replied (.error (.unsupported .hijack)) s) ∨
    (s.upgrade.isSome = true ∧
      ∃ reply, s.hijack = .replied reply { s with upgrade := none, bodySender := false }) := by
  cases hupgrade : s.upgrade with
  | none => exact .inl ⟨rfl, by simp [hijack, hs, hupgrade]⟩
  | some handle => exact .inr ⟨rfl, handle.outcome, hijack_of_handle hs hupgrade⟩

/-- A sender that is released stays released. -/
theorem answer_released {s : Stream} (hs : s.Settled) (hsender : s.bodySender = false)
    (n : Network) (effect : Effect) :
    (World.answer ⟨channel, n⟩ effect s).state.bodySender = false := by
  by_cases hhijack : effect = .call .hijack
  · subst hhijack
    show s.hijack.state.bodySender = false
    rcases hijack_of_committed hs.committed with ⟨-, hreply⟩ | ⟨-, reply, hreply⟩
    · rw [hreply]
      exact hsender
    · rw [hreply]
      rfl
  · rw [answer_bodySender hs n hhijack]
    exact hsender

end Stream

/-- Any other action asks for anything but a hijack. -/
theorem Action.only_of_not_hijack (a : Action) (ha : ∀ send, a ≠ .hijack send) :
    a.program.Only (· ≠ .call .hijack) := by
  cases a with
  | hijack send => exact absurd rfl (ha send)
  | _ => exact ⟨by simp, fun _ => trivial⟩

namespace Exchange

/-! ## Chunks -/

/-- The chunk that a step puts into the queue: that of a write which succeeds. -/
def accepted : Move → Result → List Bytes
  | .act (.write data), .answer (.count _) => [data]
  | _, _ => []

/-- The chunk that a step hands to the reader. -/
def Result.chunks : Result → List Bytes
  | .chunk data => [data]
  | _ => []

/-- The chunks of the writes that succeed in the course of some moves. -/
def written : Exchange → List Move → List Bytes
  | _, [] => []
  | e, m :: moves => accepted m (e.step m).1 ++ written (e.step m).2 moves

/-- The chunks that are read in the course of some moves. -/
def chunks : Exchange → List Move → List Bytes
  | _, [] => []
  | e, m :: moves => (e.step m).1.chunks ++ chunks (e.step m).2 moves

/-- The move drops the reader's side: the receiver of a head that was not taken, or the body. -/
def abandons (e : Exchange) : Move → Bool
  | .dropHead => e.stream.slot != .taken && e.stream.slot != .gone
  | .dropBody => e.stream.reader == .held
  | _ => false

/-- One of the moves drops the reader's side. -/
def abandoned : Exchange → List Move → Bool
  | _, [] => false
  | e, m :: moves => e.abandons m || abandoned (e.step m).2 moves

theorem act_write_of_present {e : Exchange} (hp : e.present = true) (data : Bytes) :
    e.act (.write data) = match e.stream.write data with
      | .replied reply s => (.answer (Action.answer .count reply), { e with stream := s })
      | .waits s => (.pending, { e with stream := s }) := by
  simp only [act, hp, if_true]
  simp only [Action.program, bind, Program.bind, Program.call]
  cases hanswer : world.answer (.call (.write data)) e.stream with
  | replied reply s =>
    rw [Program.run_perform_replied _ hanswer, show e.stream.write data = _ from hanswer]
    rfl
  | waits s =>
    rw [Program.run_perform_waits _ hanswer, show e.stream.write data = _ from hanswer]

/-- How a write ends, by who holds the ends of the body after its commit. -/
theorem act_write_cases {e : Exchange} (h : e.Coherent) (hp : e.present = true) (data : Bytes) :
    ∃ s, s = e.stream.commitIfNeeded ∧ s.Coherent ∧ s.Settled ∧
    ((s.bodySender = false ∧ ∃ status, s.status = some status ∧
        e.act (.write data) = (.answer (.failed (.bodyNotAllowed status)), { e with stream := s })) ∨
      (s.bodySender = true ∧ s.reader = .gone ∧
        e.act (.write data) = (.answer (.failed .closed), { e with stream := s })) ∨
      (s.bodySender = true ∧ s.reader ≠ .gone ∧ s.queue.length < Stream.capacity ∧
        e.act (.write data) = (.answer (.count data.length),
          { e with stream := { s with queue := s.queue ++ [data] } })) ∨
      (s.bodySender = true ∧ s.reader ≠ .gone ∧ s.queue.length = Stream.capacity ∧
        e.act (.write data) = (.pending, { e with stream := s }))) := by
  obtain ⟨hcoherent, hsettled⟩ := Stream.coherent_commitIfNeeded h.stream (h.attached hp)
  have hbounded := hcoherent.bounded
  refine ⟨_, rfl, hcoherent, hsettled, ?_⟩
  rw [act_write_of_present hp, Stream.write]
  rcases Stream.push_cases hsettled data with ⟨hsender, status, hstatus, hpush⟩ |
    ⟨hsender, hgone, hpush⟩ | ⟨hsender, hgone, hroom, hpush⟩ | ⟨hsender, hgone, hfull, hpush⟩ <;>
    rw [hpush]
  · exact .inl ⟨hsender, status, hstatus, rfl⟩
  · exact .inr (.inl ⟨hsender, hgone, rfl⟩)
  · exact .inr (.inr (.inl ⟨hsender, hgone, hroom, rfl⟩))
  · exact .inr (.inr (.inr ⟨hsender, hgone, by omega, rfl⟩))

/-- Any other action leaves the queue alone. -/
theorem act_of_not_write (e : Exchange) {a : Action} (ha : ∀ data, a ≠ .write data) :
    (e.act a).2.stream.queue = e.stream.queue ∧ accepted (.act a) (e.act a).1 = [] := by
  have haccepted : ∀ r, accepted (.act a) r = [] := by
    intro r
    cases a with
    | write data => exact absurd rfl (ha data)
    | _ => rfl
  have honly : a.program.Only fun effect => ∀ data, effect ≠ .call (.write data) := by
    cases a with
    | write data => exact absurd rfl (ha data)
    | hijack send =>
      refine ⟨by simp, fun reply => ?_⟩
      cases reply with
      | error e => trivial
      | ok hijacked =>
        cases send with
        | none => trivial
        | some data => exact ⟨by simp, fun _ => trivial⟩
    | _ => exact ⟨by simp, fun _ => trivial⟩
  refine ⟨?_, haccepted _⟩
  cases hp : e.present with
  | false => rw [act_of_not_present hp]
  | true =>
    rw [(act_of_present hp a).1]
    exact honly.run (w := world) (fun s => s.queue = e.stream.queue)
      (fun effect s hallowed hs => (Stream.answer_queue s world.network hallowed).trans hs) rfl

theorem act_chunks (e : Exchange) (a : Action) : (e.act a).1.chunks = [] := by
  simp only [act]
  split
  · split <;> rfl
  · rfl

/-- **A step loses, duplicates and reorders nothing**, unless it drops the reader's side. -/
theorem step_conserves {e : Exchange} (h : e.Coherent) {m : Move} (hm : e.abandons m = false) :
    e.stream.queue ++ accepted m (e.step m).1 = (e.step m).1.chunks ++ (e.step m).2.stream.queue := by
  cases m with
  | act a =>
    rw [step, act_chunks, List.nil_append]
    by_cases ha : ∃ data, a = .write data
    · obtain ⟨data, rfl⟩ := ha
      cases hp : e.present with
      | false => simp [act_of_not_present hp, accepted]
      | true =>
        obtain ⟨s, hs, -, -, hcases⟩ := act_write_cases h hp data
        have hqueue : s.queue = e.stream.queue := by
          rw [hs]
          exact e.stream.commitIfNeeded_queue
        rcases hcases with ⟨-, status, -, hact⟩ | ⟨-, -, hact⟩ | ⟨-, -, -, hact⟩ | ⟨-, -, -, hact⟩ <;>
          simp [hact, accepted, hqueue]
    · have ha : ∀ data, a ≠ .write data := fun data heq => ha ⟨data, heq⟩
      obtain ⟨hqueue, haccepted⟩ := act_of_not_write e ha
      rw [hqueue, haccepted, List.append_nil]
  | takeHead =>
    simp only [step, takeHead, accepted, List.append_nil]
    split
    · rfl
    · split <;> rfl
    · rfl
    · rfl
  | read =>
    simp only [step, read, accepted, List.append_nil]
    split
    · split
      · next data rest hqueue => exact hqueue
      · next hqueue => split <;> rfl
    · rfl
  | dropHead =>
    simp only [step, dropHead, accepted, List.append_nil]
    split
    · rfl
    · next head hslot => simp [abandons, hslot] at hm
    · rfl
  | dropBody =>
    have hheld : ¬ (e.stream.reader == .held) = true := by simpa [abandons] using hm
    simp only [step, dropBody, accepted, List.append_nil, if_neg hheld]
    rfl
  | dropChannel => simp [step, dropChannel, accepted, Result.chunks, Stream.close]

theorem after_conserves {e : Exchange} (h : e.Coherent) {moves : List Move}
    (hm : e.abandoned moves = false) :
    e.stream.queue ++ e.written moves = e.chunks moves ++ (e.after moves).stream.queue := by
  induction moves generalizing e with
  | nil => simp [written, chunks, after]
  | cons m moves ih =>
    simp only [abandoned, Bool.or_eq_false_iff] at hm
    obtain ⟨hm, hmoves⟩ := hm
    have hstep := step_conserves h hm
    have hrest := ih (h.step m) hmoves
    calc e.stream.queue ++ e.written (m :: moves)
        = (e.stream.queue ++ accepted m (e.step m).1) ++ (e.step m).2.written moves := by
          rw [written, List.append_assoc]
      _ = (e.step m).1.chunks ++ ((e.step m).2.stream.queue ++ (e.step m).2.written moves) := by
          rw [hstep, List.append_assoc]
      _ = e.chunks (m :: moves) ++ (e.after (m :: moves)).stream.queue := by
          rw [hrest, ← List.append_assoc]
          rfl

/-! ## Without a reader -/

/-- Nobody can read the body, now or after a commit. -/
def Lost (e : Exchange) : Prop :=
  e.stream.reader = .gone ∨ e.stream.reader = .absent ∧ e.stream.slot = .gone

theorem Lost.reader_of_committed {e : Exchange} (h : e.Lost) (hc : e.Coherent)
    (hs : e.stream.isCommitted = true) : e.stream.reader = .gone := by
  have hne : e.stream.reader ≠ .absent := mt hc.stream.absent.mp (Option.isSome_iff_ne_none.mp hs)
  exact h.resolve_right fun habsent => hne habsent.1

theorem Lost.writeStatus {e : Exchange} (h : e.Lost) (hc : e.Coherent) (hp : e.present = true)
    (hs : e.stream.isCommitted = false) (status : Status) :
    (e.stream.writeStatus status).reader = .gone := by
  have hnone : e.stream.status = none := by simpa [Stream.isCommitted] using hs
  have habsent := hc.stream.absent.mpr hnone
  have hslot : e.stream.slot = .gone := by
    rcases h with hgone | ⟨-, hslot⟩
    · simp [habsent] at hgone
    · exact hslot
  rw [Stream.writeStatus_of_headSender ((hc.attached hp).mpr hnone)]
  simp [hslot]

/-- The first commit finds no receiver. -/
theorem Lost.commitIfNeeded {e : Exchange} (h : e.Lost) (hc : e.Coherent) (hp : e.present = true) :
    e.stream.commitIfNeeded.reader = .gone := by
  cases hs : e.stream.isCommitted with
  | true =>
    rw [Stream.commitIfNeeded_of_committed hs]
    exact h.reader_of_committed hc hs
  | false =>
    rw [Stream.commitIfNeeded_of_not_committed hs]
    exact h.writeStatus hc hp hs .ok

theorem Lost.act {e : Exchange} (h : e.Lost) (hc : e.Coherent) (a : Action) :
    (e.act a).2.Lost ∧ accepted (.act a) (e.act a).1 = [] := by
  cases hp : e.present with
  | false =>
    rw [act_of_not_present hp]
    refine ⟨h, ?_⟩
    cases a <;> rfl
  | true =>
    constructor
    · rw [(act_of_present hp a).1]
      cases hs : e.stream.isCommitted with
      | true =>
        have hsettled := (hc.attached hp).settled (Option.isSome_iff_ne_none.mp hs)
        have hsame := Stream.run_sameHead (n := world.network) a.program hsettled
        exact .inl (hsame.reader.trans (h.reader_of_committed hc hs))
      | false =>
        cases hcommit : a.commit? with
        | none =>
          rw [Stream.run_action_of_not_committed hs hcommit]
          exact h
        | some status =>
          obtain ⟨queue, hrun⟩ := Stream.run_action_of_commit hs hcommit
          rw [hrun]
          exact .inl (h.writeStatus hc hp hs status)
    · cases a with
      | write data =>
        obtain ⟨s, hs, -, -, hcases⟩ := act_write_cases hc hp data
        have hgone : s.reader = .gone := by
          rw [hs]
          exact h.commitIfNeeded hc hp
        rcases hcases with ⟨-, status, -, hact⟩ | ⟨-, -, hact⟩ | ⟨-, hne, -⟩ | ⟨-, hne, -⟩
        · rw [hact]; rfl
        · rw [hact]; rfl
        · exact absurd hgone hne
        · exact absurd hgone hne
      | _ => rfl

/-- Without a reader nothing is accepted or read, and no step brings a reader back. -/
theorem Lost.step {e : Exchange} (h : e.Lost) (hc : e.Coherent) (m : Move) :
    (e.step m).2.Lost ∧ accepted m (e.step m).1 = [] ∧ (e.step m).1.chunks = [] := by
  have hheld : ¬ (e.stream.reader == .held) = true := by
    rcases h with hreader | ⟨hreader, -⟩ <;> simp [hreader]
  have hready : ∀ head, e.stream.slot ≠ .ready head := by
    intro head hslot
    have hwaiting := hc.stream.ready head hslot
    rcases h with hreader | ⟨hreader, -⟩ <;> simp [hreader] at hwaiting
  cases m with
  | act a =>
    obtain ⟨hlost, haccepted⟩ := h.act hc a
    exact ⟨hlost, haccepted, act_chunks e a⟩
  | takeHead =>
    simp only [Exchange.step, takeHead]
    split
    · next head hslot => exact absurd hslot (hready head)
    · refine ⟨h, rfl, ?_⟩
      split <;> rfl
    · exact ⟨h, rfl, rfl⟩
    · exact ⟨h, rfl, rfl⟩
  | read =>
    simp only [Exchange.step, read, if_neg hheld]
    exact ⟨h, rfl, rfl⟩
  | dropHead =>
    simp only [Exchange.step, dropHead]
    split
    · exact ⟨h, rfl, rfl⟩
    · next head hslot => exact absurd hslot (hready head)
    · exact ⟨h.imp id fun habsent => ⟨habsent.1, rfl⟩, rfl, rfl⟩
  | dropBody =>
    simp only [Exchange.step, dropBody, if_neg hheld]
    exact ⟨h, rfl, rfl⟩
  | dropChannel => exact ⟨h, rfl, rfl⟩

theorem Lost.after {e : Exchange} (h : e.Lost) (hc : e.Coherent) (moves : List Move) :
    (e.after moves).Lost ∧ e.written moves = [] ∧ e.chunks moves = [] := by
  induction moves generalizing e with
  | nil => exact ⟨h, rfl, rfl⟩
  | cons m moves ih =>
    obtain ⟨hlost, haccepted, hchunks⟩ := h.step hc m
    obtain ⟨hafter, hwritten, hread⟩ := ih hlost (hc.step m)
    exact ⟨hafter, by rw [written, haccepted, hwritten]; rfl, by rw [chunks, hchunks, hread]; rfl⟩

/-- Whoever drops the reader's side leaves the body without a reader. -/
theorem lost_of_abandons {e : Exchange} (hc : e.Coherent) {m : Move} (hm : e.abandons m = true) :
    (e.step m).2.Lost ∧ accepted m (e.step m).1 = [] ∧ (e.step m).1.chunks = [] := by
  cases m with
  | dropHead =>
    simp only [Exchange.step, dropHead]
    cases hslot : e.stream.slot with
    | empty => exact ⟨.inr ⟨hc.stream.empty hslot, rfl⟩, rfl, rfl⟩
    | ready head => exact ⟨.inl rfl, rfl, rfl⟩
    | taken => simp [abandons, hslot] at hm
    | gone => simp [abandons, hslot] at hm
  | dropBody =>
    have hheld : (e.stream.reader == .held) = true := hm
    simp only [Exchange.step, dropBody, if_pos hheld]
    exact ⟨.inl rfl, rfl, rfl⟩
  | _ => cases hm

/-! ## Without a sender -/

/-- The sender of the body is released for good. -/
structure Released (e : Exchange) : Prop where
  sender : e.stream.bodySender = false
  settled : e.present = true → e.stream.Settled

/-- The move releases the sender: the end of the channel's side, or a hijack after the commit while
the handle is there. -/
def Releases (e : Exchange) (m : Move) : Prop :=
  m = .dropChannel ∨ e.present = true ∧ e.stream.isCommitted = true ∧
    e.stream.upgrade.isSome = true ∧ ∃ send, m = .act (.hijack send)

/-- The receiver's side leaves the sender of the body alone. -/
theorem step_bodySender (e : Exchange) {m : Move} (hact : ∀ a, m ≠ .act a)
    (hdrop : m ≠ .dropChannel) : (e.step m).2.stream.bodySender = e.stream.bodySender := by
  obtain ⟨slot, reader, queue, hstep⟩ := e.step_receiver hact hdrop
  rw [hstep]

theorem Released.act {e : Exchange} (h : e.Released) (hc : e.Coherent) (a : Action) :
    (e.act a).2.Released ∧ accepted (.act a) (e.act a).1 = [] := by
  cases hp : e.present with
  | false =>
    rw [act_of_not_present hp]
    refine ⟨h, ?_⟩
    cases a <;> rfl
  | true =>
    have hsettled := h.settled hp
    constructor
    · have hrun := (Program.only_of_forall (fun _ => trivial) a.program).run (w := world)
        (fun s => s.Settled ∧ s.bodySender = false)
        (fun effect s _ hs => ⟨(Stream.answer_sameHead hs.1 world.network effect).settled hs.1,
          Stream.answer_released hs.1 hs.2 world.network effect⟩)
        ⟨hsettled, h.sender⟩
      rw [(act_of_present hp a).1]
      exact ⟨hrun.2, fun _ => hrun.1⟩
    · cases a with
      | write data =>
        obtain ⟨s, hs, -, -, hcases⟩ := act_write_cases hc hp data
        rw [Stream.commitIfNeeded_of_committed hsettled.committed] at hs
        have hsender : s.bodySender = false := by
          rw [hs]
          exact h.sender
        rcases hcases with ⟨-, status, -, hact⟩ | ⟨hheld, -⟩ | ⟨hheld, -⟩ | ⟨hheld, -⟩
        · rw [hact]; rfl
        all_goals simp [hsender] at hheld
      | _ => rfl

theorem Released.step {e : Exchange} (h : e.Released) (hc : e.Coherent) (m : Move) :
    (e.step m).2.Released ∧ accepted m (e.step m).1 = [] := by
  rcases m.side with ⟨a, rfl⟩ | rfl | ⟨hact, hdrop⟩
  · exact h.act hc a
  · exact ⟨⟨rfl, fun hpresent => by cases hpresent⟩, rfl⟩
  · have haccepted : accepted m (e.step m).1 = [] := by
      cases m <;> first | rfl | exact absurd rfl (hact _)
    have hside := step_sameSide e hact hdrop
    refine ⟨⟨(step_bodySender e hact hdrop).trans h.sender, fun hpresent => ?_⟩, haccepted⟩
    have hsettled := h.settled (hside.present ▸ hpresent)
    refine ⟨?_, hside.headSender.trans hsettled.spent⟩
    rw [Stream.isCommitted, hside.status]
    exact hsettled.committed

theorem Released.after {e : Exchange} (h : e.Released) (hc : e.Coherent) (moves : List Move) :
    (e.after moves).Released ∧ e.written moves = [] := by
  induction moves generalizing e with
  | nil => exact ⟨h, rfl⟩
  | cons m moves ih =>
    obtain ⟨hreleased, haccepted⟩ := h.step hc m
    obtain ⟨hafter, hwritten⟩ := ih hreleased (hc.step m)
    exact ⟨hafter, by rw [written, haccepted, hwritten]; rfl⟩

/-- What a hijack makes of a committed stream. -/
theorem run_hijack_of_committed {s : Stream} (hs : s.isCommitted = true) (send : Option Bytes) :
    if s.upgrade.isSome = true then ∃ sent, ((Action.hijack send).program.run world s).state =
      { s with upgrade := none, bodySender := false, sent := sent }
    else ((Action.hijack send).program.run world s).state = s := by
  simp only [Action.program, bind, Program.bind, Program.call]
  rcases Stream.hijack_of_committed hs with ⟨hupgrade, hreply⟩ | ⟨hupgrade, reply, hreply⟩
  · have hanswer : world.answer (.call .hijack) s = .replied (.error (.unsupported .hijack)) s :=
      hreply
    rw [hupgrade, Program.run_perform_replied _ hanswer]
    rfl
  · have hanswer : world.answer (.call .hijack) s =
        .replied reply { s with upgrade := none, bodySender := false } := hreply
    rw [if_pos hupgrade, Program.run_perform_replied _ hanswer]
    cases reply with
    | error error => exact ⟨s.sent, rfl⟩
    | ok hijacked =>
      cases send with
      | none => exact ⟨s.sent, rfl⟩
      | some data => exact ⟨s.sent ++ data, rfl⟩

theorem Releases.released {e : Exchange} {m : Move} (h : e.Releases m) (hc : e.Coherent) :
    (e.step m).2.Released ∧ (e.step m).2.stream.queue = e.stream.queue := by
  rcases h with rfl | ⟨hp, hs, hupgrade, send, rfl⟩
  · exact ⟨⟨rfl, fun hpresent => by cases hpresent⟩, rfl⟩
  · have hrun := run_hijack_of_committed hs send
    rw [if_pos hupgrade] at hrun
    obtain ⟨sent, hrun⟩ := hrun
    have hsettled := (hc.attached hp).settled (Option.isSome_iff_ne_none.mp hs)
    rw [Exchange.step, (act_of_present hp _).1, hrun]
    exact ⟨⟨rfl, fun _ => ⟨hsettled.committed, hsettled.spent⟩⟩, rfl⟩

/-- What the steps of some moves come to, in order. -/
def results : Exchange → List Move → List Result
  | _, [] => []
  | e, m :: moves => (e.step m).1 :: results (e.step m).2 moves

/-- Reading on, the reader gets every chunk of the queue in order and then the end. -/
theorem Released.results_read {e : Exchange} (h : e.Released) (hheld : e.stream.reader = .held) :
    e.results (List.replicate (e.stream.queue.length + 1) .read) =
      e.stream.queue.map .chunk ++ [.ended] := by
  obtain ⟨s, present⟩ := e
  obtain ⟨hsender, -⟩ := h
  simp only at hheld hsender ⊢
  generalize hqueue : s.queue = queue
  induction queue generalizing s with
  | nil => simp [results, Exchange.step, Exchange.read, hheld, hqueue, hsender]
  | cons data rest ih =>
    have hread : Exchange.read ⟨s, present⟩ = (.chunk data, ⟨{ s with queue := rest }, present⟩) := by
      simp [Exchange.read, hheld, hqueue]
    rw [List.length_cons, List.replicate_succ, results, Exchange.step, hread]
    simp only [List.map_cons, List.cons_append, List.cons.injEq, true_and]
    exact ih { s with queue := rest } hheld hsender rfl

/-! ## Who holds the sender -/

/-- The commit of a status with a body brings the sender. -/
theorem bodySender_of_commit {e : Exchange} (hc : e.Coherent) (hp : e.present = true)
    (hs : e.stream.status = none) {m : Move} {status : Status} (hm : m.commit? = some status) :
    (e.step m).2.stream.bodySender = status.allowsBody := by
  cases m with
  | act a =>
    have hcommitted : e.stream.isCommitted = false := by simp [Stream.isCommitted, hs]
    obtain ⟨queue, hrun⟩ := Stream.run_action_of_commit hcommitted hm
    rw [step, (act_of_present hp a).1, hrun,
      Stream.writeStatus_of_headSender ((hc.attached hp).mpr hs)]
  | _ => cases hm

/-- Once a status is committed, no action but a hijack changes who holds the sender of the body. -/
theorem run_bodySender {s : Stream} (hs : s.Settled) {a : Action} (ha : ∀ send, a ≠ .hijack send) :
    (a.program.run world s).state.bodySender = s.bodySender := by
  have hrun := (a.only_of_not_hijack ha).run (w := world)
    (fun t => t.Settled ∧ t.bodySender = s.bodySender)
    (fun effect t hallowed ht => ⟨(Stream.answer_sameHead ht.1 world.network effect).settled ht.1,
      (Stream.answer_bodySender ht.1 world.network hallowed).trans ht.2⟩)
    ⟨hs, rfl⟩
  exact hrun.2

/-- A sender is held until it is released. -/
theorem bodySender_of_not_releases {e : Exchange} (hc : e.Coherent)
    (hsender : e.stream.bodySender = true) {m : Move} (hm : ¬ e.Releases m) :
    (e.step m).2.stream.bodySender = true := by
  rcases m.side with ⟨a, rfl⟩ | rfl | ⟨hact, hdrop⟩
  · rw [step]
    cases hp : e.present with
    | false =>
      rw [act_of_not_present hp]
      exact hsender
    | true =>
      have hsettled := (hc.attached hp).settled (hc.stream.status_ne_none hsender)
      rw [(act_of_present hp a).1]
      by_cases hhijack : ∃ send, a = .hijack send
      · obtain ⟨send, rfl⟩ := hhijack
        have hupgrade : ¬ e.stream.upgrade.isSome = true := fun hupgrade =>
          hm (.inr ⟨hp, hsettled.committed, hupgrade, send, rfl⟩)
        have hrun := run_hijack_of_committed hsettled.committed send
        rw [if_neg hupgrade] at hrun
        rw [hrun]
        exact hsender
      · rw [run_bodySender hsettled fun send ha => hhijack ⟨send, ha⟩]
        exact hsender
  · exact absurd (.inl rfl) hm
  · rw [step_bodySender e hact hdrop]
    exact hsender

/-! ## Reads and writes -/

/-- A write waits for room in the queue of a sender that is held, and changes nothing meanwhile. -/
theorem write_waits {e : Exchange} (hc : e.Coherent) (hp : e.present = true) (data : Bytes) :
    ((e.step (.act (.write data))).1 = .pending ↔
      e.stream.bodySender = true ∧ e.stream.queue.length = Stream.capacity) ∧
    ((e.step (.act (.write data))).1 = .pending → (e.step (.act (.write data))).2 = e) := by
  obtain ⟨s, hs, hcoherent, -, hcases⟩ := act_write_cases hc hp data
  have hsame : e.stream.bodySender = true → s = e.stream := fun hsender => by
    rw [hs, Stream.commitIfNeeded_of_committed]
    exact Option.isSome_iff_ne_none.mpr (hc.stream.status_ne_none hsender)
  rw [step]
  rcases hcases with ⟨hsender, status, -, hact⟩ | ⟨-, hgone, hact⟩ | ⟨-, -, hroom, hact⟩ |
    ⟨hsender, hreader, hfull, hact⟩ <;> rw [hact]
  · refine ⟨⟨by simp, ?_⟩, by simp⟩
    rintro ⟨hheld, -⟩
    rw [hsame hheld, hheld] at hsender
    cases hsender
  · refine ⟨⟨by simp, ?_⟩, by simp⟩
    rintro ⟨hheld, hfull⟩
    have hempty := hcoherent.unread (.inr hgone)
    rw [hsame hheld] at hempty
    simp [hempty, Stream.capacity] at hfull
  · refine ⟨⟨by simp, ?_⟩, by simp⟩
    rintro ⟨hheld, hfull⟩
    rw [hsame hheld] at hroom
    omega
  · -- a full queue was not filled by the commit
    have hcommitted : e.stream.isCommitted = true := by
      cases hcommitted : e.stream.isCommitted with
      | true => rfl
      | false =>
        have hempty : e.stream.queue = [] := hc.stream.unread
          (.inl (hc.stream.absent.mpr (by simpa [Stream.isCommitted] using hcommitted)))
        rw [hs, Stream.commitIfNeeded_queue, hempty] at hfull
        simp [Stream.capacity] at hfull
    rw [Stream.commitIfNeeded_of_committed hcommitted] at hs
    subst hs
    exact ⟨⟨fun _ => ⟨hsender, hfull⟩, fun _ => rfl⟩, fun _ => rfl⟩

theorem read_waits {e : Exchange} (hheld : e.stream.reader = .held) :
    (e.step .read).1 = .pending ↔ e.stream.queue = [] ∧ e.stream.bodySender = true := by
  simp only [step, read, hheld, beq_self_eq_true, if_true]
  cases e.stream.queue with
  | cons data rest => simp
  | nil => cases e.stream.bodySender <;> simp

theorem ended_of_read {e : Exchange} (h : (e.step .read).1 = .ended) : e.stream.queue = [] := by
  simp only [step, read] at h
  split at h
  · cases hqueue : e.stream.queue with
    | nil => rfl
    | cons data rest => simp [hqueue] at h
  · cases h

/-! ## The laws of a body -/

/-- With its sender released, a body comes to its end: nothing more is accepted, and the reader gets
what is left in the queue, in order, and then the end. -/
structure Drains (e : Exchange) : Prop where
  accepts_nothing : ∀ more, e.written more = []
  in_order : ∀ more, e.abandoned more = false →
    e.chunks more ++ (e.after more).stream.queue = e.stream.queue
  never_waits : ∀ more, (e.after more).stream.reader = .held →
    (e.after more).results (List.replicate ((e.after more).stream.queue.length + 1) .read) =
      (e.after more).stream.queue.map .chunk ++ [.ended]
  then_ends : ∀ more, e.abandoned more = false → ((e.after more).step .read).1 = .ended →
    e.chunks more = e.stream.queue

/-- With its reader dropped, a body takes nothing and gives nothing. While its sender is held, and
also where nothing is committed yet, every write fails because the client has gone. -/
structure Refuses (e : Exchange) : Prop where
  accepts_nothing : ∀ more, e.written more = []
  gives_nothing : ∀ more, e.chunks more = []
  closed : ∀ more data, (e.after more).present = true →
    (e.after more).stream.bodySender = true ∨ (e.after more).stream.status = none →
    ((e.after more).step (.act (.write data))).1 = .answer (.failed .closed)

/-- How the two sides of a body wait for each other, and what one side gets when the other is gone. -/
structure Paced (e : Exchange) : Prop where
  bounded : e.stream.queue.length ≤ Stream.capacity
  held : ∀ m status, e.present = true → e.stream.status = none → m.commit? = some status →
    (e.step m).2.stream.bodySender = status.allowsBody
  stays_held : ∀ m, e.stream.bodySender = true → ¬ e.Releases m →
    (e.step m).2.stream.bodySender = true
  write_waits : ∀ data, e.present = true → ((e.step (.act (.write data))).1 = .pending ↔
    e.stream.bodySender = true ∧ e.stream.queue.length = Stream.capacity)
  waiting_changes_nothing : ∀ data, e.present = true →
    (e.step (.act (.write data))).1 = .pending → (e.step (.act (.write data))).2 = e
  read_waits : e.stream.reader = .held →
    ((e.step .read).1 = .pending ↔ e.stream.queue = [] ∧ e.stream.bodySender = true)
  released : ∀ m, e.Releases m →
    (e.step m).2.stream.queue = e.stream.queue ∧ (e.step m).2.Drains
  dropped : ∀ m, e.abandons m = true → (e.step m).2.Refuses

theorem Released.drains {e : Exchange} (h : e.Released) (hc : e.Coherent) : e.Drains := by
  have hconserves : ∀ more, e.abandoned more = false →
      e.chunks more ++ (e.after more).stream.queue = e.stream.queue := by
    intro more hmore
    have hwritten := (h.after hc more).2
    have hqueue := after_conserves hc hmore
    rw [hwritten, List.append_nil] at hqueue
    exact hqueue.symm
  refine ⟨fun more => (h.after hc more).2, hconserves,
    fun more hheld => (h.after hc more).1.results_read hheld, fun more hmore hended => ?_⟩
  have hqueue := hconserves more hmore
  rw [ended_of_read hended, List.append_nil] at hqueue
  exact hqueue

theorem Lost.refuses {e : Exchange} (h : e.Lost) (hc : e.Coherent) : e.Refuses := by
  refine ⟨fun more => (h.after hc more).2.1, fun more => (h.after hc more).2.2,
    fun more data hp hsender => ?_⟩
  have hlost := (h.after hc more).1
  have hcoherent := hc.after more
  obtain ⟨s, hs, -, -, hcases⟩ := act_write_cases hcoherent hp data
  have hgone : s.reader = .gone := by
    rw [hs]
    exact hlost.commitIfNeeded hcoherent hp
  have hheld : s.bodySender = true := by
    rw [hs]
    rcases hsender with hsender | hnone
    · rw [Stream.commitIfNeeded_of_committed]
      · exact hsender
      · exact Option.isSome_iff_ne_none.mpr (hcoherent.stream.status_ne_none hsender)
    · rw [Stream.commitIfNeeded_of_not_committed (by simp [Stream.isCommitted, hnone]),
        Stream.writeStatus_of_headSender ((hcoherent.attached hp).mpr hnone)]
      rfl
  rw [Exchange.step]
  rcases hcases with ⟨hsender, -⟩ | ⟨-, -, hact⟩ | ⟨-, hreader, -⟩ | ⟨-, hreader, -⟩
  · simp [hheld] at hsender
  · rw [hact]
  · exact absurd hgone hreader
  · exact absurd hgone hreader

theorem Coherent.paced {e : Exchange} (h : e.Coherent) : e.Paced where
  bounded := h.stream.bounded
  held := fun _ _ hp hs hm => bodySender_of_commit h hp hs hm
  stays_held := fun _ hsender hm => bodySender_of_not_releases h hsender hm
  write_waits := fun data hp => (Exchange.write_waits h hp data).1
  waiting_changes_nothing := fun data hp => (Exchange.write_waits h hp data).2
  read_waits := Exchange.read_waits
  released := fun m hm => by
    obtain ⟨hreleased, hqueue⟩ := hm.released h
    exact ⟨hqueue, hreleased.drains (h.step m)⟩
  dropped := fun m hm => (lost_of_abandons h hm).1.refuses (h.step m)

/-- What is read is the beginning of what was written, also when the reader's side is dropped. -/
theorem chunks_prefix {e : Exchange} (h : e.Coherent) (moves : List Move) :
    e.chunks moves <+: e.stream.queue ++ e.written moves := by
  induction moves generalizing e with
  | nil => exact List.nil_prefix
  | cons m moves ih =>
    cases hm : e.abandons m with
    | true =>
      obtain ⟨hlost, -, hchunks⟩ := lost_of_abandons h hm
      obtain ⟨-, -, hrest⟩ := hlost.after (h.step m) moves
      rw [chunks, hchunks, hrest]
      exact List.nil_prefix
    | false =>
      have hstep := step_conserves h hm
      have hrest := ih (h.step m)
      rw [chunks, written, ← List.append_assoc, hstep, List.append_assoc]
      exact (List.prefix_append_right_inj _).mpr hrest

/-- **The body of a response loses, duplicates and reorders nothing.** In any run of both sides the
chunks of the writes that succeeded are those that were read and then those in the queue, as long as
the reader's side is not dropped, and those that were read come first in any case. The two sides wait
for each other, and end, as `Paced` says. -/
theorem body_in_order (upgrade : Option UpgradeHandle) (moves : List Move) :
    ((start upgrade).abandoned moves = false → (start upgrade).written moves =
      (start upgrade).chunks moves ++ ((start upgrade).after moves).stream.queue) ∧
    (start upgrade).chunks moves <+: (start upgrade).written moves ∧
    ((start upgrade).after moves).Paced := by
  have hstart := coherent_start upgrade
  have hprefix := chunks_prefix hstart moves
  refine ⟨fun hm => ?_, hprefix, (hstart.after moves).paced⟩
  exact after_conserves hstart hm

/-- Sixteen chunks of a response, and a hijack that is refused. -/
def hijackedWhenFull : List Move :=
  .act (.status .ok) :: (List.replicate 16 (.act (.write [0x78])) ++ [.act (.hijack none)])

/-- After a hijack a write on a response with a body does not wait, although its queue is full. -/
theorem write_fails_when_full :
    let e := (start (some .unavailable)).after hijackedWhenFull
    e.present = true ∧ e.stream.status = some .ok ∧ Status.ok.allowsBody = true ∧
      e.stream.queue.length = Stream.capacity ∧ (start (some .unavailable)).abandoned hijackedWhenFull = false ∧
      (e.step (.act (.write [0x78]))).1 = .answer (.failed (.bodyNotAllowed .ok)) ∧
      (e.step (.act (.write [0x78]))).1 ≠ .pending := by
  refine ⟨rfl, rfl, rfl, rfl, rfl, rfl, ?_⟩
  exact fun h => by cases h

end Exchange

end UpgradeBridge
