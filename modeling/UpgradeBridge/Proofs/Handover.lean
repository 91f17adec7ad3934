/-
The handle by which a connection is handed over, in runs of an exchange. Only a
hijack after the commit touches it, and takes it for good (`step_upgrade`,
`after_upgrade`). So the handle is awaited once at most (`awaited_eq`), and what
an early look at the capabilities promised still holds when the first hijack
comes.
-/
import UpgradeBridge.Proofs.Body
import UpgradeBridge.Proofs.Connect
import UpgradeBridge.Proofs.Delegation
import UpgradeBridge.Proofs.Handshake

namespace UpgradeBridge

/-- What a hijack is answered that awaits a handle. -/
def UpgradeHandle.answer (send : Option Bytes) : UpgradeHandle → Answer
  | .fails reason => .failed (.upgrade reason)
  | .opens hijacked => .hijacked hijacked (send.map fun data => .ok data.length)

namespace Stream

theorem writeStatus_upgrade (s : Stream) (status : Status) :
    (s.writeStatus status).upgrade = s.upgrade := by
  unfold writeStatus
  split <;> rfl

/-- After a commit a status is committed, that one or an earlier one. -/
theorem Attached.writeStatus {s : Stream} (h : s.Attached) (status : Status) :
    (s.writeStatus status).status ≠ none := by
  cases hhead : s.headSender with
  | true => simp [writeStatus_of_headSender hhead]
  | false =>
    rw [writeStatus_of_spent hhead]
    exact fun hnone => by simp [h.mpr hnone] at hhead

theorem commitIfNeeded_upgrade (s : Stream) : s.commitIfNeeded.upgrade = s.upgrade := by
  unfold commitIfNeeded
  split
  · rfl
  · exact s.writeStatus_upgrade .ok

/-- A commit after some edits leaves the handle. -/
theorem commit_after_edits {s : Stream} (h : s.Attached) (edits : List Headers.Edit) (status : Status) :
    (channel.writeStatus status (channel.editAll s edits)).isCommitted = true ∧
      (channel.writeStatus status (channel.editAll s edits)).upgrade = s.upgrade := by
  rw [editAll_eq]
  refine ⟨Option.isSome_iff_ne_none.mpr (Attached.writeStatus ?_ status), writeStatus_upgrade _ status⟩
  exact h

/-- Only a hijack changes the handle. -/
theorem answer_upgrade (s : Stream) (n : Network) {effect : Effect} (h : effect ≠ .call .hijack) :
    (World.answer ⟨channel, n⟩ effect s).state.upgrade = s.upgrade := by
  cases effect with
  | call c =>
    cases c with
    | writeStatus status => exact s.writeStatus_upgrade status
    | write data =>
      obtain ⟨queue, hpush⟩ := s.commitIfNeeded.push_state data
      show (s.commitIfNeeded.push data).state.upgrade = s.upgrade
      rw [hpush]
      exact s.commitIfNeeded_upgrade
    | flush => exact s.commitIfNeeded_upgrade
    | hijack => exact absurd rfl h
    | _ => rfl
  | relay connection =>
    simp only [World.answer]
    split <;> rfl
  | _ => rfl

end Stream

namespace Exchange

/-- The move is a hijack. -/
def Move.isHijack : Move → Bool
  | .act (.hijack _) => true
  | _ => false

theorem Move.isHijack_of_not_act {m : Move} (h : ∀ a, m ≠ .act a) : m.isHijack = false := by
  cases m with
  | act a => exact absurd rfl (h a)
  | _ => rfl

/-- The move tries to take over the connection of a response that was committed. -/
def tries (e : Exchange) (m : Move) : Bool :=
  m.isHijack && (e.present && e.stream.isCommitted)

theorem tries_of_not_hijack (e : Exchange) {a : Action} (ha : ∀ send, a ≠ .hijack send) :
    e.tries (.act a) = false := by
  cases a with
  | hijack send => exact absurd rfl (ha send)
  | _ => rfl

/-- One of the moves tries to. -/
def tried : Exchange → List Move → Bool
  | _, [] => false
  | e, m :: moves => e.tries m || tried (e.step m).2 moves

/-- How often the handle is awaited in the course of some moves. -/
def awaited : Exchange → List Move → Nat
  | _, [] => 0
  | e, m :: moves => (e.tries m && e.stream.upgrade.isSome).toNat + awaited (e.step m).2 moves

/-- There is nothing to take over: no head was committed, there is no handle, or the channel's side is
gone. -/
def Result.isRefusal : Result → Bool
  | .answer (.failed .notCommitted) | .answer (.failed (.unsupported _)) | .absent => true
  | _ => false

/-! ## Single moves -/

theorem act_hijack_of_present {e : Exchange} (hp : e.present = true) (send : Option Bytes) :
    e.act (.hijack send) = match e.stream.hijack with
      | .replied (.error error) s => (.answer (.failed error), { e with stream := s })
      | .replied (.ok hijacked) s =>
        (.answer (.hijacked hijacked (send.map fun data => .ok data.length)),
          { e with stream := { s with sent := s.sent ++ send.getD [] } })
      | .waits s => (.pending, { e with stream := s }) := by
  simp only [act, hp, if_true, Action.program, bind, Program.bind, Program.call]
  cases hanswer : world.answer (.call .hijack) e.stream with
  | waits s =>
    rw [Program.run_perform_waits _ hanswer, show e.stream.hijack = _ from hanswer]
  | replied reply s =>
    rw [Program.run_perform_replied _ hanswer, show e.stream.hijack = _ from hanswer]
    cases reply with
    | error error => rfl
    | ok hijacked =>
      cases send with
      | none => simp [Program.run, Run.after, pure]
      | some data => rfl

/-- What becomes of a hijack: it is refused and changes nothing, or it takes the handle and is answered
by what comes of that. -/
theorem step_hijack {e : Exchange} (hp : e.present = true) (send : Option Bytes) :
    (e.stream.status = none →
      e.step (.act (.hijack send)) = (.answer (.failed .notCommitted), e)) ∧
    (e.stream.status ≠ none → e.stream.upgrade = none →
      e.step (.act (.hijack send)) = (.answer (.failed (.unsupported .hijack)), e)) ∧
    ∀ handle, e.stream.status ≠ none → e.stream.upgrade = some handle →
      (e.step (.act (.hijack send))).1 = .answer (handle.answer send) ∧
        (e.step (.act (.hijack send))).2.stream.upgrade = none := by
  rw [step, act_hijack_of_present hp]
  refine ⟨fun hs => ?_, fun hs hupgrade => ?_, fun handle hs hupgrade => ?_⟩
  · simp [Stream.hijack, Stream.isCommitted, hs]
  · simp [Stream.hijack, Stream.isCommitted, Option.isSome_iff_ne_none.mpr hs, hupgrade]
  · rw [Stream.hijack_of_handle (Option.isSome_iff_ne_none.mpr hs) hupgrade]
    cases handle <;> exact ⟨rfl, rfl⟩

theorem act_upgrade (e : Exchange) (a : Action) :
    (e.act a).2.stream.upgrade = if e.tries (.act a) then none else e.stream.upgrade := by
  cases hp : e.present with
  | false => simp [act_of_not_present hp, tries, hp]
  | true =>
    by_cases hhijack : ∃ send, a = .hijack send
    · obtain ⟨send, rfl⟩ := hhijack
      obtain ⟨hearly, hspent, htaken⟩ := step_hijack hp send
      rw [step] at hearly hspent htaken
      cases hs : e.stream.status with
      | none => simp [hearly hs, tries, Stream.isCommitted, hs]
      | some status =>
        have hne : e.stream.status ≠ none := by simp [hs]
        rw [if_pos (by simp [tries, Move.isHijack, hp, Stream.isCommitted, hs])]
        cases hupgrade : e.stream.upgrade with
        | none =>
          rw [hspent hne hupgrade]
          exact hupgrade
        | some handle => exact (htaken handle hne hupgrade).2
    · have hhijack : ∀ send, a ≠ .hijack send := fun send ha => hhijack ⟨send, ha⟩
      have hrun := (a.only_of_not_hijack hhijack).run (w := world)
        (fun s => s.upgrade = e.stream.upgrade)
        (fun effect s hallowed hs => (s.answer_upgrade world.network hallowed).trans hs) rfl
      rw [(act_of_present hp a).1, e.tries_of_not_hijack hhijack]
      exact hrun

/-- Only a hijack after the commit touches the handle, and takes it. -/
theorem step_upgrade (e : Exchange) (m : Move) :
    (e.step m).2.stream.upgrade = if e.tries m then none else e.stream.upgrade := by
  rcases m.side with ⟨a, rfl⟩ | rfl | ⟨hact, hdrop⟩
  · exact e.act_upgrade a
  · rfl
  · obtain ⟨slot, reader, queue, hstep⟩ := e.step_receiver hact hdrop
    rw [hstep, tries, Move.isHijack_of_not_act hact]
    rfl

/-- A hijack is refused unless it finds the handle. -/
theorem isRefusal_step (e : Exchange) (m : Move) :
    (m.isHijack && !(e.step m).1.isRefusal) = (e.tries m && e.stream.upgrade.isSome) := by
  by_cases hhijack : ∃ send, m = .act (.hijack send)
  · obtain ⟨send, rfl⟩ := hhijack
    cases hp : e.present with
    | false => simp [step, act_of_not_present hp, Result.isRefusal, tries, hp]
    | true =>
      obtain ⟨hearly, hspent, htaken⟩ := step_hijack hp send
      cases hs : e.stream.status with
      | none => simp [hearly hs, Result.isRefusal, tries, Stream.isCommitted, hs]
      | some status =>
        have hne : e.stream.status ≠ none := by simp [hs]
        cases hupgrade : e.stream.upgrade with
        | none => simp [hspent hne hupgrade, Result.isRefusal]
        | some handle =>
          rw [(htaken handle hne hupgrade).1]
          cases handle <;>
            simp [UpgradeHandle.answer, Result.isRefusal, tries, Move.isHijack, hp,
              Stream.isCommitted, hs]
  · have hm : m.isHijack = false := by
      unfold Move.isHijack
      split
      · next send => exact absurd ⟨send, rfl⟩ hhijack
      · rfl
    simp [tries, hm]

/-! ## Runs -/

theorem after_upgrade (e : Exchange) (moves : List Move) :
    (e.after moves).stream.upgrade = if e.tried moves then none else e.stream.upgrade := by
  induction moves generalizing e with
  | nil => rfl
  | cons m moves ih =>
    rw [show e.after (m :: moves) = (e.step m).2.after moves from rfl, ih, step_upgrade, tried]
    cases e.tries m <;> simp

/-- The handle is awaited once if there is one and a hijack tries for it after the commit, and never
otherwise. -/
theorem awaited_eq (e : Exchange) (moves : List Move) :
    e.awaited moves = (e.tried moves && e.stream.upgrade.isSome).toNat := by
  induction moves generalizing e with
  | nil => rfl
  | cons m moves ih =>
    rw [awaited, ih, step_upgrade, tried]
    cases e.tries m <;> simp

/-- The hijacks that are not refused are those that await the handle. -/
theorem countP_results (e : Exchange) (moves : List Move) :
    (moves.zip (e.results moves)).countP (fun x => x.1.isHijack && !x.2.isRefusal) =
      e.awaited moves := by
  induction moves generalizing e with
  | nil => rfl
  | cons m moves ih =>
    rw [results, List.zip_cons_cons, List.countP_cons, ih, awaited, isRefusal_step]
    cases e.tries m && e.stream.upgrade.isSome <;> simp [Nat.add_comm]

theorem tried_of_no_hijack (e : Exchange) {moves : List Move}
    (h : ∀ m ∈ moves, m.isHijack = false) : e.tried moves = false := by
  induction moves generalizing e with
  | nil => rfl
  | cons m moves ih =>
    rw [tried, tries, h m (by simp), ih _ fun x hx => h x (by simp [hx])]
    rfl

end Exchange

/-! ## A tunnel that has looked ahead -/

namespace Connect

/-- Once the connection is handed over, the channel is not called any more. -/
theorem splice_yields (host : String) (hijacked : Hijacked) :
    (splice host hijacked).Yields fun value => ∀ error, value ≠ .error (.channel error) := by
  by_cases h : hijacked.buffered = []
  · rw [splice_of_empty host h]
    exact fun _ => by simp [Program.Yields]
  · rw [splice_of_ne host h]
    intro forwarded
    cases forwarded with
    | error error => simp [Program.Yields]
    | ok _ => exact fun _ => by simp [Program.Yields]

/-- A client that is joined behind a fresh switch while the handle is there. -/
theorem channel_error_of_join {p : ProtocolSwitch} {network : Network} {s : Stream} (ha : s.Attached)
    {handle : UpgradeHandle} (hupgrade : s.upgrade = some handle) {host : String} {error : ChannelError}
    (h : ((join host).run (p.world ⟨Stream.channel, network⟩) (s, .waiting)).outcome =
      .returned (.error (.channel error))) : ∃ reason, handle = .fails reason ∧ error = .upgrade reason := by
  let w : World Stream := ⟨Stream.channel, network⟩
  obtain ⟨t, hready, hcommitted, htaken⟩ : ∃ t, (p.world w).answer (.call (.writeStatus .ok)) (s, .waiting) =
      .replied () (t, .switched) ∧ t.isCommitted = true ∧ t.upgrade = some handle := by
    obtain ⟨hcommitted, htaken⟩ := Stream.commit_after_edits ha p.edits .switchingProtocols
    exact ⟨_, p.answer_ready w s, hcommitted, htaken.trans hupgrade⟩
  have hflush : (p.world w).answer (.call .flush) (t, .switched) = .replied (.ok ()) (t, .switched) := by
    rw [p.answer_world w t (by simp), show w.answer (.call .flush) t = .replied (.ok ()) t.commitIfNeeded
      from rfl, Stream.commitIfNeeded_of_committed hcommitted]
    rfl
  rw [join_eq, Program.run_perform_replied _ hready, Run.after_outcome,
    Program.run_perform_replied _ hflush, Run.after_outcome] at h
  have hhijack : (p.world w).answer (.call .hijack) (t, .switched) = .replied handle.outcome
      ({ t with upgrade := none, bodySender := false },
        ProtocolSwitch.State.switched.next ⟨.call .hijack, handle.outcome⟩) := by
    rw [p.answer_world w t (by simp), show w.answer (.call .hijack) t = t.hijack from rfl,
      Stream.hijack_of_handle hcommitted htaken]
    rfl
  rw [Program.run_perform_replied _ hhijack] at h
  cases handle with
  | fails reason =>
    cases h
    exact ⟨reason, rfl, rfl⟩
  | opens hijacked => exact absurd rfl ((splice_yields host hijacked).run _ _ _ h error)

end Connect

namespace Tunnel

/-- The only error of the channel that a tunnel comes to is that of the handle. -/
theorem channel_error_of_bridge {network : Network} {s : Stream} (ha : s.Attached)
    {alphabet : Base64.Alphabet} {timeout : Nat} {u : Upgrade} {r : Request} {error : ChannelError}
    (h : ((bridge alphabet (Connect.serve timeout) u r).run ⟨Stream.channel, network⟩ s).outcome =
      .returned (.error (.channel error))) :
    ∃ reason, s.upgrade = some (.fails reason) ∧ error = .upgrade reason := by
  cases htarget : u.target? with
  | none =>
    rw [bridge_of_no_target alphabet _ htarget] at h
    cases h
  | some uri =>
    obtain ⟨host, rfl⟩ := Upgrade.target_authority htarget
    obtain ⟨connect, hretarget, hmethod, huri⟩ := Upgrade.retarget_of_target htarget r
    have hhost : connect.uri.authority? = some host := by
      rw [huri]
      rfl
    cases hupgrade : s.upgrade with
    | none =>
      have hmissing : (Stream.channel.capabilities s).missing = some .hijack := by
        simp [Stream.channel, Stream.capabilities, hupgrade, Capabilities.missing]
      rw [run_bridge_lacking alphabet _ hretarget _ _ hmissing] at h
      cases h
    | some handle =>
      have hcomplete : (Stream.channel.capabilities s).missing = none := by
        simp [Stream.channel, Stream.capabilities, hupgrade, Capabilities.missing]
      rw [run_bridge_switched alphabet _ hretarget _ _ hcomplete] at h
      simp only [ProtocolSwitch.world, Connect.run_connect timeout network _ _ hmethod hhost,
        Run.after_outcome] at h
      cases hdial : network.dial host.text timeout with
      | connected =>
        rw [hdial] at h
        obtain ⟨reason, rfl, herror⟩ := Connect.channel_error_of_join ha hupgrade h
        exact ⟨reason, rfl, herror⟩
      | _ =>
        rw [hdial] at h
        cases h

end Tunnel

/-! ## The discipline of a handle -/

namespace Exchange

/-- What a handle that was given comes to while the channel's side is there; `tried` says whether a
hijack has tried for it after the commit. -/
structure Disciplined (e : Exchange) (upgrade : Option UpgradeHandle) (tried : Bool) : Prop where
  early : e.stream.status = none → ∀ send,
    e.step (.act (.hijack send)) = (.answer (.failed .notCommitted), e)
  able : e.step (.act .capabilities) = (.answer (.capabilities ⟨true, upgrade.isSome && !tried⟩), e)
  flushes : (e.step (.act .flush)).1 = .answer .done
  /-- A look at the capabilities holds until the next hijack, however much later that is made. -/
  promised : e.stream.capabilities.missing = none → ∀ more, (∀ m ∈ more, m.isHijack = false) →
    (e.after more).present = true → (e.after more).stream.status ≠ none → ∀ send,
      ((e.after more).step (.act (.hijack send))).1.isRefusal = false ∧ ∃ handle,
        upgrade = some handle ∧
        ((e.after more).step (.act (.hijack send))).1 = .answer (handle.answer send)
  tunnel : ∀ network alphabet timeout u r error,
    ((Tunnel.bridge alphabet (Connect.serve timeout) u r).run ⟨Stream.channel, network⟩
      e.stream).outcome = .returned (.error (.channel error)) →
        ∃ reason, upgrade = some (.fails reason) ∧ error = .upgrade reason

theorem isRefusal_answer (handle : UpgradeHandle) (send : Option Bytes) :
    (Result.answer (handle.answer send)).isRefusal = false := by
  cases handle <;> rfl

/-- **A handle is awaited once at most, and one early look says whether it will be there.** In any run
of both sides no more than one hijack is anything but refused. A hijack before the commit is refused and
changes nothing; a flush always works; and the channel tells that it can be taken over exactly if it
was given a handle and no hijack has tried since the commit. Where it tells so, the next hijack after a
commit is answered by the handle, whatever else happens before it; and a tunnel, which looks first, comes
to no error of the channel but the handle's own. -/
theorem handle_awaited_once (upgrade : Option UpgradeHandle) (moves : List Move) :
    (start upgrade).awaited moves ≤ 1 ∧
    (moves.zip ((start upgrade).results moves)).countP (fun x => x.1.isHijack && !x.2.isRefusal) =
      (start upgrade).awaited moves ∧
    (((start upgrade).after moves).present = true →
      ((start upgrade).after moves).Disciplined upgrade ((start upgrade).tried moves)) := by
  refine ⟨?_, countP_results _ moves, fun hp => ?_⟩
  · rw [awaited_eq]
    exact Bool.toNat_le _
  have hupgrade : ((start upgrade).after moves).stream.upgrade =
      if (start upgrade).tried moves then none else upgrade := after_upgrade _ moves
  have hattached := ((coherent_start upgrade).after moves).attached hp
  generalize (start upgrade).tried moves = tried at hupgrade ⊢
  generalize (start upgrade).after moves = e at hp hupgrade hattached ⊢
  -- what is left of the handle is what was given
  have hgiven : ∀ handle, e.stream.upgrade = some handle → upgrade = some handle := by
    intro handle hleft
    cases tried with
    | true => simp [hupgrade] at hleft
    | false => exact hupgrade.symm.trans hleft
  refine ⟨fun hs send => (step_hijack hp send).1 hs, ?_, ?_, ?_, ?_⟩
  · have hable : e.stream.upgrade.isSome = (upgrade.isSome && !tried) := by
      rw [hupgrade]
      cases tried <;> simp
    rw [← hable, step, act, if_pos hp]
    rfl
  · rw [step, act, if_pos hp]
    rfl
  · intro hmissing more hmore hpresent hs send
    cases hleft : e.stream.upgrade with
    | none => simp [Stream.capabilities, hleft, Capabilities.missing] at hmissing
    | some handle =>
      have hkept : (e.after more).stream.upgrade = some handle := by
        rw [after_upgrade, tried_of_no_hijack e hmore]
        exact hleft
      obtain ⟨-, -, htaken⟩ := step_hijack hpresent send
      rw [(htaken handle hs hkept).1]
      exact ⟨isRefusal_answer handle send, handle, hgiven handle hleft, rfl⟩
  · intro network alphabet timeout u r error h
    obtain ⟨reason, hleft, herror⟩ := Tunnel.channel_error_of_bridge hattached h
    exact ⟨reason, hgiven _ hleft, herror⟩

end Exchange

end UpgradeBridge
