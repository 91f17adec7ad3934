/-
What a streamed response holds, against the status that was committed, and what
its writes come to.

The channel's side holds a sender for the body exactly while it is there, a
status with a body is committed, and the handle is the one that was given
(`Sound`, kept by every step). So a response whose status has no body stays
empty, and a write that blames the status is right about it unless a hijack has
taken the handle before.
-/
import UpgradeBridge.Proofs.Handover

namespace UpgradeBridge

namespace Status

/-- A status whose responses have no body: 1xx, 204 and 304. -/
def Bodiless (s : Status) : Prop :=
  (100 ≤ s.code ∧ s.code < 200) ∨ s.code = 204 ∨ s.code = 304

theorem allowsBody_eq_true_iff (s : Status) : s.allowsBody = true ↔ ¬ s.Bodiless := by
  obtain ⟨code, hrange⟩ := s
  simp only [allowsBody, isInformational, noContent, notModified, Bodiless, mk.injEq, Bool.not_eq_true',
    Bool.or_eq_false_iff, Bool.and_eq_false_iff, decide_eq_false_iff_not, beq_eq_false_iff_ne, ne_eq]
  omega

instance (s : Status) : Decidable s.Bodiless :=
  inferInstanceAs (Decidable (_ ∨ _ ∨ _))

end Status

/-- Where octets are to be written, a status is committed: the one that was, or 200. -/
theorem Stream.commitIfNeeded_status {s : Stream} (h : s.Attached) :
    s.commitIfNeeded.status = some (s.status.getD .ok) := by
  cases hs : s.status with
  | some status => simp [commitIfNeeded, isCommitted, hs]
  | none =>
    rw [commitIfNeeded_of_not_committed (by simp [isCommitted, hs]),
      writeStatus_of_headSender (h.mpr hs)]
    rfl

namespace Exchange

/-! ## The sender of the body -/

/-- The sender of the body is held exactly while the channel's side is there, a status with a body is
committed, and the handle that was given was not taken. -/
structure Sound (upgrade : Option UpgradeHandle) (e : Exchange) : Prop where
  coherent : e.Coherent
  dropped : e.present = false → e.stream.headSender = false
  sender : e.stream.bodySender = true ↔ e.present = true ∧
    (∃ status, e.stream.status = some status ∧ status.allowsBody = true) ∧ e.stream.upgrade = upgrade
  given : e.stream.upgrade = none ∨ e.stream.upgrade = upgrade
  untouched : e.stream.status = none → e.stream.upgrade = upgrade

theorem sound_start (upgrade : Option UpgradeHandle) : (start upgrade).Sound upgrade :=
  ⟨coherent_start upgrade, by simp [start], by simp [start], .inr rfl, fun _ => rfl⟩

variable {upgrade : Option UpgradeHandle}

/-- Before the commit, an action commits or it leaves the sender and the handle alone. -/
theorem Sound.act_of_not_committed {e : Exchange} (h : e.Sound upgrade) (hp : e.present = true)
    (hs : e.stream.status = none) (a : Action) : (e.act a).2.Sound upgrade := by
  have hcoherent := h.coherent.step (.act a)
  have hcommitted : e.stream.isCommitted = false := by simp [Stream.isCommitted, hs]
  have hupgrade := h.untouched hs
  rw [step, (act_of_present hp a).1] at hcoherent
  rw [(act_of_present hp a).1]
  cases hcommit : a.commit? with
  | none =>
    rw [Stream.run_action_of_not_committed hcommitted hcommit] at hcoherent ⊢
    exact ⟨hcoherent, h.dropped, h.sender, h.given, h.untouched⟩
  | some status =>
    obtain ⟨queue, hrun⟩ := Stream.run_action_of_commit hcommitted hcommit
    rw [hrun, Stream.writeStatus_of_headSender ((h.coherent.attached hp).mpr hs)] at hcoherent ⊢
    refine ⟨hcoherent, by simp, ?_, .inr hupgrade, fun _ => hupgrade⟩
    simp [hp, hupgrade]

/-- A hijack after the commit takes the handle and the sender together, or neither. -/
theorem Sound.act_hijack {e : Exchange} (h : e.Sound upgrade) (hp : e.present = true)
    (hs : e.stream.status ≠ none) (send : Option Bytes) : (e.act (.hijack send)).2.Sound upgrade := by
  have hcoherent := h.coherent.step (.act (.hijack send))
  have hsettled := (h.coherent.attached hp).settled hs
  have hrun := run_hijack_of_committed hsettled.committed send
  rw [Exchange.step, (act_of_present hp _).1] at hcoherent
  rw [(act_of_present hp _).1]
  split at hrun
  · next hleft =>
    obtain ⟨sent, hrun⟩ := hrun
    have htaken : none ≠ upgrade := by
      rintro rfl
      rcases h.given with hnone | hnone <;> simp [hnone] at hleft
    rw [hrun] at hcoherent ⊢
    exact ⟨hcoherent, h.dropped, by simp [htaken], .inl rfl, fun hnone => absurd hnone hs⟩
  · rw [hrun] at hcoherent ⊢
    exact h

theorem Sound.act_of_committed {e : Exchange} (h : e.Sound upgrade) (hp : e.present = true)
    (hs : e.stream.status ≠ none) (a : Action) : (e.act a).2.Sound upgrade := by
  by_cases hhijack : ∃ send, a = .hijack send
  · obtain ⟨send, rfl⟩ := hhijack
    exact h.act_hijack hp hs send
  · have hhijack : ∀ send, a ≠ .hijack send := fun send ha => hhijack ⟨send, ha⟩
    have hcoherent := h.coherent.step (.act a)
    have hsettled := (h.coherent.attached hp).settled hs
    have hstatus : (a.program.run world e.stream).state.status = e.stream.status :=
      (Stream.run_sameHead a.program hsettled).status
    have hupgrade : (a.program.run world e.stream).state.upgrade = e.stream.upgrade := by
      have htaken := e.act_upgrade a
      rw [tries_of_not_hijack e hhijack, (act_of_present hp a).1] at htaken
      exact htaken
    rw [Exchange.step, (act_of_present hp a).1] at hcoherent
    rw [(act_of_present hp a).1]
    refine ⟨hcoherent, by simp [hp], ?_, ?_, fun hnone => absurd (hstatus.symm.trans hnone) hs⟩
    · simp only [hstatus, hupgrade, run_bodySender hsettled hhijack]
      exact h.sender
    · simp only [hupgrade]
      exact h.given

theorem Sound.step {e : Exchange} (h : e.Sound upgrade) (m : Move) : (e.step m).2.Sound upgrade := by
  have hcoherent := h.coherent.step m
  rcases m.side with ⟨a, rfl⟩ | rfl | ⟨hact, hdrop⟩
  · rw [Exchange.step]
    cases hp : e.present with
    | false =>
      rw [act_of_not_present hp]
      exact h
    | true =>
      by_cases hs : e.stream.status = none
      · exact h.act_of_not_committed hp hs a
      · exact h.act_of_committed hp hs a
  · exact ⟨hcoherent, fun _ => rfl, by simp [Exchange.step, dropChannel, Stream.close], h.given,
      h.untouched⟩
  · obtain ⟨slot, reader, queue, hstep⟩ := e.step_receiver hact hdrop
    rw [hstep] at hcoherent ⊢
    exact ⟨hcoherent, h.dropped, h.sender, h.given, h.untouched⟩

theorem Sound.after {e : Exchange} (h : e.Sound upgrade) (moves : List Move) :
    (e.after moves).Sound upgrade := by
  induction moves generalizing e with
  | nil => exact h
  | cons m moves ih => exact ih (h.step m)

theorem Sound.sealed {e : Exchange} (h : e.Sound upgrade) (hs : e.stream.status ≠ none) : e.Sealed := by
  have hsettled := fun hp => (h.coherent.attached hp).settled hs
  refine ⟨?_, hsettled⟩
  cases hp : e.present with
  | true => exact (hsettled hp).spent
  | false => exact h.dropped hp

/-- A status that was committed stays. -/
theorem Sound.status_after {e : Exchange} (h : e.Sound upgrade) {status : Status}
    (hs : e.stream.status = some status) (moves : List Move) :
    (e.after moves).stream.status = some status :=
  ((h.sealed (by simp [hs])).after moves).2.trans hs

theorem Sound.body_of_held {e : Exchange} (h : e.Sound upgrade) (hheld : e.stream.bodySender = true) :
    ∃ status, e.stream.status = some status ∧ ¬ status.Bodiless := by
  obtain ⟨-, ⟨status, hs, hallows⟩, -⟩ := h.sender.mp hheld
  exact ⟨status, hs, (Status.allowsBody_eq_true_iff status).mp hallows⟩

/-! ## Writes -/

/-- What a write comes to whose octets the response can carry: it succeeds, it waits for room, or the
client has gone. -/
def Streams (e : Exchange) (data : Bytes) : Prop :=
  (e.step (.act (.write data))).1 = .answer (.count data.length) ∨
  ((e.step (.act (.write data))).1 = .pending ∧
    (e.step (.act (.write data))).2.stream.queue.length = Stream.capacity) ∨
  ((e.step (.act (.write data))).1 = .answer (.failed .closed) ∧
    (e.step (.act (.write data))).2.stream.reader = .gone)

/-- Where a write does not stream, it blames the status: the one that is committed then. -/
theorem Sound.write {e : Exchange} (h : e.Sound upgrade) (hp : e.present = true) (data : Bytes) :
    (e.step (.act (.write data))).2.stream.status = some (e.stream.status.getD .ok) ∧
    if (e.stream.status.getD .ok).Bodiless ∨ e.stream.upgrade ≠ upgrade then
      (e.step (.act (.write data))).1 = .answer (.failed (.bodyNotAllowed (e.stream.status.getD .ok)))
    else e.Streams data := by
  -- what the write finds is what a flush leaves
  have hflush : (e.step (.act .flush)).2 = { e with stream := e.stream.commitIfNeeded } := by
    rw [Exchange.step, act, if_pos hp]
    rfl
  have hsound := h.step (.act .flush)
  rw [hflush] at hsound
  have hstatus := Stream.commitIfNeeded_status (h.coherent.attached hp)
  have hupgrade := e.stream.commitIfNeeded_upgrade
  obtain ⟨s, hs, -, -, hcases⟩ := act_write_cases h.coherent hp data
  rw [← hs] at hsound hstatus hupgrade
  generalize e.stream.status.getD .ok = committed at hstatus ⊢
  have hsender : s.bodySender = true ↔ ¬ (committed.Bodiless ∨ e.stream.upgrade ≠ upgrade) := by
    simp [hsound.sender, hp, hstatus, hupgrade, Status.allowsBody_eq_true_iff]
  rw [Streams, Exchange.step]
  rcases hcases with ⟨hreleased, status, hblamed, hact⟩ | ⟨hheld, hgone, hact⟩ | ⟨hheld, -, -, hact⟩ |
    ⟨hheld, -, hfull, hact⟩ <;> rw [hact]
  · obtain rfl : status = committed := Option.some.inj (hblamed.symm.trans hstatus)
    have hblames : status.Bodiless ∨ e.stream.upgrade ≠ upgrade := by
      refine Decidable.not_not.mp fun hnot => ?_
      simp [hsender.mpr hnot] at hreleased
    rw [if_pos hblames]
    exact ⟨hstatus, rfl⟩
  · rw [if_neg (hsender.mp hheld)]
    exact ⟨hstatus, .inr (.inr ⟨rfl, hgone⟩)⟩
  · rw [if_neg (hsender.mp hheld)]
    exact ⟨hstatus, .inl rfl⟩
  · rw [if_neg (hsender.mp hheld)]
    exact ⟨hstatus, .inr (.inl ⟨rfl, hfull⟩)⟩

/-- A write that is accepted holds the sender. -/
theorem bodySender_of_accepted {e : Exchange} (h : e.Coherent) {m : Move}
    (hm : accepted m (e.step m).1 ≠ []) : (e.step m).2.stream.bodySender = true := by
  by_cases hwrite : ∃ data, m = .act (.write data)
  · obtain ⟨data, rfl⟩ := hwrite
    rw [Exchange.step] at hm ⊢
    cases hp : e.present with
    | false =>
      rw [act_of_not_present hp] at hm
      exact absurd rfl hm
    | true =>
      obtain ⟨s, -, -, -, hcases⟩ := act_write_cases h hp data
      rcases hcases with ⟨-, status, -, hact⟩ | ⟨-, -, hact⟩ | ⟨hheld, -, -, hact⟩ | ⟨-, -, -, hact⟩ <;>
        rw [hact] at hm ⊢
      · exact absurd rfl hm
      · exact absurd rfl hm
      · exact hheld
      · exact absurd rfl hm
  · refine absurd ?_ hm
    unfold accepted
    split
    · exact absurd ⟨_, rfl⟩ hwrite
    · rfl

/-- **A write blames the status exactly if the status has no body or a hijack went before.** The status it
blames is always the committed one. It is blamed rightly unless a hijack has tried, after the commit, for
the handle that was given: the hijack releases the sender, also where it fails. In any other run a write
on a response with a body succeeds, waits for room, or finds the client gone. -/
theorem bodyNotAllowed_iff (upgrade : Option UpgradeHandle) (moves : List Move) (data : Bytes)
    (hp : ((start upgrade).after moves).present = true) :
    ∃ status, (((start upgrade).after moves).step (.act (.write data))).2.stream.status = some status ∧
      (∀ blamed, (((start upgrade).after moves).step (.act (.write data))).1 =
          .answer (.failed (.bodyNotAllowed blamed)) ↔
        blamed = status ∧
          (status.Bodiless ∨ upgrade.isSome = true ∧ (start upgrade).tried moves = true)) ∧
      (¬ status.Bodiless → upgrade.isSome = false ∨ (start upgrade).tried moves = false →
        ((start upgrade).after moves).Streams data) := by
  have hsound := (sound_start upgrade).after moves
  have htaken : ((start upgrade).after moves).stream.upgrade ≠ upgrade ↔
      upgrade.isSome = true ∧ (start upgrade).tried moves = true := by
    rw [after_upgrade]
    cases (start upgrade).tried moves <;> cases upgrade <;> simp [start]
  obtain ⟨hstatus, hwrite⟩ := hsound.write hp data
  refine ⟨_, hstatus, ?_⟩
  simp only [htaken] at hwrite
  split at hwrite
  · next hblames =>
    refine ⟨fun blamed => ?_, fun hbody htried => ?_⟩
    · rw [hwrite]
      refine ⟨fun h => ⟨?_, hblames⟩, fun h => by rw [h.1]⟩
      simpa using h.symm
    · obtain ⟨hgiven, htook⟩ := hblames.resolve_left hbody
      simp [hgiven, htook] at htried
  · next hstreams =>
    refine ⟨fun blamed => iff_of_false ?_ fun h => hstreams h.2, fun _ _ => hwrite⟩
    rcases hwrite with hresult | ⟨hresult, -⟩ | ⟨hresult, -⟩ <;> simp [hresult]

/-- A write is refused after 204 was committed. -/
theorem blames_noContent :
    ((start none).after [.act (.status .noContent)]).present = true ∧
      (((start none).after [.act (.status .noContent)]).step (.act (.write [0x78]))).1 =
        .answer (.failed (.bodyNotAllowed .noContent)) := by
  obtain ⟨status, hstatus, hblamed, -⟩ :=
    bodyNotAllowed_iff none [.act (.status .noContent)] [0x78] rfl
  obtain rfl : Status.noContent = status := Option.some.inj hstatus
  exact ⟨rfl, (hblamed .noContent).mpr ⟨rfl, .inl (by decide)⟩⟩

/-- After a hijack that fails, a write says of 200 that it does not allow a body. -/
theorem blames_ok_after_hijack :
    let e := (start (some .unavailable)).after [.act (.status .ok), .act (.hijack none)]
    e.present = true ∧ e.stream.status = some .ok ∧ ¬ Status.ok.Bodiless ∧
      (e.step (.act (.write [0x78]))).1 = .answer (.failed (.bodyNotAllowed .ok)) ∧
      (ChannelError.bodyNotAllowed .ok).message = "status 200 OK does not allow a response body" ∧
      ¬ e.Streams [0x78] := by
  refine ⟨rfl, rfl, by decide, rfl, by decide, ?_⟩
  rintro (h | ⟨h, -⟩ | ⟨h, -⟩) <;> cases h

/-! ## Bodiless responses -/

theorem chunks_append (e : Exchange) (moves more : List Move) :
    e.chunks (moves ++ more) = e.chunks moves ++ (e.after moves).chunks more := by
  induction moves generalizing e with
  | nil => rfl
  | cons m moves ih =>
    rw [List.cons_append, chunks, chunks, ih, List.append_assoc]
    rfl

theorem Lost.queue {e : Exchange} (h : e.Lost) (hc : e.Coherent) : e.stream.queue = [] :=
  hc.stream.unread (h.symm.imp (·.1) id)

/-- Where the status that is committed in the end has no body, nothing is ever accepted. -/
theorem Sound.empty_of_bodiless {e : Exchange} (h : e.Sound upgrade) (hqueue : e.stream.queue = [])
    {moves : List Move} {status : Status} (hs : (e.after moves).stream.status = some status)
    (hbodiless : status.Bodiless) :
    e.written moves = [] ∧ e.chunks moves = [] ∧ (e.after moves).stream.queue = [] := by
  induction moves generalizing e with
  | nil => exact ⟨rfl, rfl, hqueue⟩
  | cons m moves ih =>
    have hstep := h.step m
    have haccepted : accepted m (e.step m).1 = [] := by
      -- the sender of an accepted write is that of a status with a body, and this status stays
      by_contra hm
      obtain ⟨committed, hcommitted, hbody⟩ := hstep.body_of_held (bodySender_of_accepted h.coherent hm)
      obtain rfl : committed = status :=
        Option.some.inj ((hstep.status_after hcommitted moves).symm.trans hs)
      exact hbody hbodiless
    obtain ⟨hchunks, hempty⟩ : (e.step m).1.chunks = [] ∧ (e.step m).2.stream.queue = [] := by
      cases hm : e.abandons m with
      | true =>
        obtain ⟨hlost, -, hchunks⟩ := lost_of_abandons h.coherent hm
        exact ⟨hchunks, hlost.queue hstep.coherent⟩
      | false =>
        have hconserves := step_conserves h.coherent hm
        rw [hqueue, haccepted, List.nil_append, eq_comm, List.append_eq_nil_iff] at hconserves
        exact hconserves
    obtain ⟨hwritten, hread, hafter⟩ := ih hstep hempty hs
    exact ⟨by rw [written, haccepted, hwritten]; rfl, by rw [chunks, hchunks, hread]; rfl, hafter⟩

/-- A response without a body: nothing can be written to it, and whoever reads it is at its end. -/
structure Silent (e : Exchange) (status : Status) : Prop where
  committed : e.stream.status = some status
  refused : ∀ data, e.present = true →
    (e.step (.act (.write data))).1 = .answer (.failed (.bodyNotAllowed status))
  empty : e.stream.queue = []
  ended : e.stream.reader = .held → (e.step .read).1 = .ended

theorem Sound.silent {e : Exchange} (h : e.Sound upgrade) {status : Status}
    (hs : e.stream.status = some status) (hbodiless : status.Bodiless) (hqueue : e.stream.queue = []) :
    e.Silent status := by
  refine ⟨hs, fun data hp => ?_, hqueue, fun hheld => ?_⟩
  · obtain ⟨-, hwrite⟩ := h.write hp data
    simp only [hs, Option.getD_some] at hwrite
    rw [if_pos (.inl hbodiless)] at hwrite
    exact hwrite
  · have hreleased : e.stream.bodySender = false := by
      refine Bool.eq_false_iff.mpr fun hsender => ?_
      obtain ⟨committed, hcommitted, hbody⟩ := h.body_of_held hsender
      obtain rfl : committed = status := Option.some.inj (hcommitted.symm.trans hs)
      exact hbody hbodiless
    simp [Exchange.step, read, hheld, hqueue, hreleased]

/-- A run that has come to a status without a body, however it goes on. -/
theorem silent_after {moves : List Move} {status : Status}
    (hs : ((start upgrade).after moves).stream.status = some status) (hbodiless : status.Bodiless)
    (more : List Move) : ((start upgrade).after (moves ++ more)).Silent status ∧
      (start upgrade).written (moves ++ more) = [] ∧ (start upgrade).chunks (moves ++ more) = [] := by
  have hstart := sound_start upgrade
  have hstays : ((start upgrade).after (moves ++ more)).stream.status = some status := by
    rw [after_append]
    exact (hstart.after moves).status_after hs more
  obtain ⟨hwritten, hchunks, hqueue⟩ := hstart.empty_of_bodiless rfl hstays hbodiless
  exact ⟨(hstart.after _).silent hstays hbodiless hqueue, hwritten, hchunks⟩

end Exchange

/-! ## Behind a protocol switch -/

namespace Handshake

open Exchange (Move FirstCommit)

/-- The chunks that are read in the course of some moves. -/
def chunks (p : ProtocolSwitch) : Handshake → List Move → List Bytes
  | _, [] => []
  | h, m :: moves => (h.step p m).1.chunks ++ chunks p (h.step p m).2 moves

theorem chunks_of_acts {e : Exchange} {moves : List Move} (h : ∀ m ∈ moves, ∃ a, m = .act a) :
    e.chunks moves = [] := by
  induction moves generalizing e with
  | nil => rfl
  | cons m moves ih =>
    obtain ⟨a, rfl⟩ := h m (by simp)
    rw [Exchange.chunks, Exchange.step, Exchange.act_chunks, ih fun x hx => h x (by simp [hx])]
    rfl

theorem step_chunks (p : ProtocolSwitch) (h : Handshake) (m : Move) :
    (h.step p m).1.chunks = h.exchange.chunks (turn p h.state m) := by
  cases m with
  | act a =>
    rw [chunks_of_acts fun m hm => acts_of_turn p h.state a hm]
    simp only [step, act]
    split
    · split <;> rfl
    · rfl
  | _ =>
    rw [turn_of_ne (by simp), Exchange.chunks, Exchange.chunks, List.append_nil]
    rfl

theorem chunks_conveyed (p : ProtocolSwitch) (h : Handshake) (moves : List Move) :
    h.chunks p moves = h.exchange.chunks (h.conveyed p moves) := by
  induction moves generalizing h with
  | nil => rfl
  | cons m moves ih =>
    rw [chunks, conveyed, Exchange.chunks_append, step_chunks, ih, (step_conveys p h m).1]

/-- A run behind the switch that has come to a status without a body, however it goes on. -/
theorem silent_after (p : ProtocolSwitch) {upgrade : Option UpgradeHandle} {moves : List Move}
    {status : Status} (hs : ((start upgrade).after p moves).exchange.stream.status = some status)
    (hbodiless : status.Bodiless) (more : List Move) :
    ((start upgrade).after p (moves ++ more)).exchange.Silent status ∧
      (∀ data, ((start upgrade).after p (moves ++ more)).exchange.present = true →
        (((start upgrade).after p (moves ++ more)).step p (.act (.write data))).1 =
          .answer (.failed (.bodyNotAllowed status))) ∧
      (start upgrade).chunks p (moves ++ more) = [] := by
  rw [((start upgrade).after_conveys p moves).1] at hs
  have hsilent := Exchange.silent_after hs hbodiless (((start upgrade).after p moves).conveyed p more)
  rw [← conveyed_append] at hsilent
  obtain ⟨hsilent, -, hchunks⟩ := hsilent
  rw [show (Exchange.start upgrade) = (start upgrade).exchange from rfl,
    ← ((start upgrade).after_conveys p (moves ++ more)).1] at hsilent
  refine ⟨hsilent, fun data hp => ?_, ?_⟩
  · rw [step_result p _ (by simp)]
    exact hsilent.refused data hp
  · rw [chunks_conveyed]
    exact hchunks

/-- Where a run first commits 200 by its own call, the status is 101 in the end. -/
theorem status_of_turn (p : ProtocolSwitch) (upgrade : Option UpgradeHandle)
    {moves before rest : List Move} (h : FirstCommit moves before (.act (.status .ok)) .ok rest) :
    ((start upgrade).after p moves).exchange.stream.status = some .switchingProtocols := by
  obtain ⟨rest, hfirst⟩ := firstCommit_conveyed p upgrade h
  obtain ⟨hsealed, hstatus, -⟩ := hfirst.committed upgrade
  rw [((start upgrade).after_conveys p moves).1, hfirst.split, List.append_cons, Exchange.after_append]
  exact (hsealed.after rest).2.trans hstatus

end Handshake

namespace Exchange

/-- What the channel's side holds, and what its writes never come to. -/
structure Regular (e : Exchange) : Prop where
  head : e.present = true → (e.stream.headSender = true ↔ e.stream.status = none)
  body : e.stream.bodySender = true →
    ∃ status, e.stream.status = some status ∧ ¬ status.Bodiless
  counts : ∀ data n, (e.step (.act (.write data))).1 = .answer (.count n) → n = data.length
  commits : ∀ data, (e.step (.act (.write data))).1 ≠ .answer (.failed .notCommitted)

theorem Sound.regular {e : Exchange} (h : e.Sound upgrade) : e.Regular := by
  -- a write is counted whole, waits, or fails with one of two errors
  have hresult : ∀ data, (e.step (.act (.write data))).1 = .absent ∨
      (e.step (.act (.write data))).1 = .answer (.count data.length) ∨
      (e.step (.act (.write data))).1 = .pending ∨
      (e.step (.act (.write data))).1 = .answer (.failed .closed) ∨
      ∃ status, (e.step (.act (.write data))).1 = .answer (.failed (.bodyNotAllowed status)) := by
    intro data
    cases hp : e.present with
    | false => exact .inl (by rw [Exchange.step, act_of_not_present hp])
    | true =>
      obtain ⟨-, hwrite⟩ := h.write hp data
      split at hwrite
      · exact .inr (.inr (.inr (.inr ⟨_, hwrite⟩)))
      · rcases hwrite with hcount | ⟨hwaits, -⟩ | ⟨hclosed, -⟩
        · exact .inr (.inl hcount)
        · exact .inr (.inr (.inl hwaits))
        · exact .inr (.inr (.inr (.inl hclosed)))
  refine ⟨h.coherent.attached, h.body_of_held, fun data n hn => ?_, fun data hn => ?_⟩
  · have hcases := hresult data
    rw [hn] at hcases
    simpa using hcases
  · have hcases := hresult data
    rw [hn] at hcases
    simp at hcases

/-- **A response whose status has no body stays empty for good.** In every run of both sides the head can
be handed over exactly until a status is committed, the sender of the body is held for a status with a
body only, and a write counts all its octets and never lacks a commit. Once the committed status is one
without a body, every later write is refused for that status, nothing was or will be accepted or read,
and the body is at its end; and so it is behind a protocol switch, where a first commit of 200 by its own
call commits 101. -/
theorem bodiless_stays_empty (upgrade : Option UpgradeHandle) (moves : List Move) :
    ((start upgrade).after moves).Regular ∧
    (∀ status, ((start upgrade).after moves).stream.status = some status → status.Bodiless →
      ∀ more, ((start upgrade).after (moves ++ more)).Silent status ∧
        (start upgrade).written (moves ++ more) = [] ∧ (start upgrade).chunks (moves ++ more) = []) ∧
    ∀ p : ProtocolSwitch,
      (∀ status, ((Handshake.start upgrade).after p moves).exchange.stream.status = some status →
        status.Bodiless → ∀ more,
          ((Handshake.start upgrade).after p (moves ++ more)).exchange.Silent status ∧
          (∀ data, ((Handshake.start upgrade).after p (moves ++ more)).exchange.present = true →
            (((Handshake.start upgrade).after p (moves ++ more)).step p (.act (.write data))).1 =
              .answer (.failed (.bodyNotAllowed status))) ∧
          (Handshake.start upgrade).chunks p (moves ++ more) = []) ∧
      ∀ before rest, FirstCommit moves before (.act (.status .ok)) .ok rest →
        ((Handshake.start upgrade).after p moves).exchange.stream.status =
          some .switchingProtocols ∧ Status.switchingProtocols.Bodiless :=
  ⟨((sound_start upgrade).after moves).regular,
    fun _ hs hbodiless more => silent_after hs hbodiless more,
    fun p => ⟨fun _ hs hbodiless more => Handshake.silent_after p hs hbodiless more,
      fun _ _ hfirst => ⟨Handshake.status_of_turn p upgrade hfirst, by decide⟩⟩⟩

end Exchange

end UpgradeBridge
