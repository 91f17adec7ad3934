/-
What a protocol switch lets through. A program behind the switch holds a
conversation with it, and the switch holds one with the channel; `Conveys` says
how the two differ, and the main theorem that they never differ otherwise:
everything is asked as the program asked it and answered as the channel
answered it, except that the turning point of the conversation, a commit of 200
before which nothing was committed or taken over, reaches the channel as the
header edits that complete the handshake and a commit of 101.

`State.next` tells the switch's state from the conversation alone.
-/
import UpgradeBridge.ProtocolSwitch
import UpgradeBridge.Proofs.AcceptToken
import UpgradeBridge.Proofs.Conversation
import UpgradeBridge.Proofs.Headers

namespace UpgradeBridge

variable {σ α β : Type}

/-- The state of a channel after some edits. -/
def Channel.editAll (channel : Channel σ) (s : σ) (edits : List Headers.Edit) : σ :=
  edits.foldl (fun s edit => channel.setHeaders s (edit.apply (channel.headers s))) s

theorem Channel.headers_editAll (channel : Channel σ) (edits : List Headers.Edit) (s : σ) :
    channel.headers (channel.editAll s edits) =
      edits.foldl Headers.Edit.apply (channel.headers s) := by
  induction edits generalizing s with
  | nil => rfl
  | cons edit edits ih =>
    refine (ih _).trans ?_
    rw [channel.headers_setHeaders]
    rfl

namespace Exchanged

/-- A commit, which is answered by nothing. -/
def commit (status : Status) : Exchanged := ⟨.call (.writeStatus status), ()⟩

/-- The status of a commit. -/
def commit? : Exchanged → Option Status
  | ⟨.call (.writeStatus status), _⟩ => some status
  | _ => none

/-- The connection was taken over. -/
def takesOver : Exchanged → Bool
  | ⟨.call .hijack, .ok _⟩ => true
  | _ => false

/-- A change to the staged header fields. -/
def isEdit : Exchanged → Bool
  | ⟨.call (.edit _), _⟩ => true
  | _ => false

/-- Nothing is committed or taken over. -/
def Quiet (x : Exchanged) : Prop :=
  commit? x = none ∧ takesOver x = false

theorem not_quiet_commit (status : Status) : ¬ Quiet (commit status) := by
  rintro ⟨h, -⟩
  cases h

end Exchanged

namespace ProtocolSwitch

open Header Exchanged

/-! ## The header fields of a completed handshake -/

/-- The staged header fields complete the handshake of a switch, and are the given ones apart from
what a handshake says. -/
structure Completes (p : ProtocolSwitch) (given staged : Headers) : Prop where
  upgrade : (staged.values Name.upgrade).map Value.bytes = [utf8 "websocket"]
  connection : (staged.values Name.connection).map Value.bytes = [utf8 "Upgrade"]
  accept : (staged.values Name.secWebSocketAccept).map Value.bytes =
    [utf8 (acceptToken p.key p.alphabet)]
  padding : staged.values Name.padding = []
  others : ∀ n, n ∉ [Name.upgrade, Name.connection, Name.secWebSocketAccept, Name.padding] →
    staged.values n = given.values n

theorem edits_eq (p : ProtocolSwitch) : p.edits =
    [.set Name.upgrade Value.websocket, .set Name.connection Value.upgrade,
      .set Name.secWebSocketAccept (acceptValue p.key p.alphabet), .remove Name.padding] := by
  simp [edits, ofString?_acceptToken]

theorem completes_edits (p : ProtocolSwitch) (given : Headers) :
    p.Completes given (p.edits.foldl Headers.Edit.apply given) := by
  have hne : Name.upgrade ≠ Name.connection ∧ Name.upgrade ≠ Name.secWebSocketAccept ∧
      Name.connection ≠ Name.secWebSocketAccept ∧ Name.padding ≠ Name.upgrade ∧
      Name.padding ≠ Name.connection ∧ Name.padding ≠ Name.secWebSocketAccept := by decide
  simp only [edits_eq, List.foldl_cons, List.foldl_nil, Headers.Edit.apply]
  constructor
  · simp [Headers.values_remove, Headers.values_insert, hne, hne.1.symm, hne.2.1.symm]
    decide
  · simp [Headers.values_remove, Headers.values_insert, hne, hne.2.2.1.symm]
    decide
  · simp [Headers.values_remove, Headers.values_insert, hne, acceptValue]
  · simp [Headers.values_remove]
  · intro n hn
    simp only [List.mem_cons, List.not_mem_nil, or_false, not_or] at hn
    simp [Headers.values_remove, Headers.values_insert, Ne.symm hn.1, Ne.symm hn.2.1,
      Ne.symm hn.2.2.1, Ne.symm hn.2.2.2]

theorem bind_stage (edits : List Headers.Edit) (q : Program α) (f : α → Program β) :
    (stage edits q).bind f = stage edits (q.bind f) := by
  induction edits with
  | nil => rfl
  | cons edit edits ih => simp only [stage, Program.bind, ih]

/-- Staging edits asks for these edits and for nothing else, and makes all of them. -/
theorem run_stage (w : World σ) (q : Program α) : ∀ (edits : List Headers.Edit) (s : σ), ∃ staged,
    (∀ x ∈ staged, isEdit x = true) ∧ w.Answers s staged (w.channel.editAll s edits) ∧
      (stage edits q).run w s = (q.run w (w.channel.editAll s edits)).after staged
  | [], s => ⟨[], by simp, .nil, rfl⟩
  | edit :: edits, s => by
    let h := w.channel.headers s
    have ha : w.answer (.call (.edit edit)) s =
      .replied (h.contains edit.name) (w.channel.setHeaders s (edit.apply h)) := rfl
    obtain ⟨staged, hedits, hanswers, hrun⟩ :=
      run_stage w q edits (w.channel.setHeaders s (edit.apply h))
    refine ⟨⟨.call (.edit edit), h.contains edit.name⟩ :: staged, ?_, .cons ha hanswers, ?_⟩
    · intro x hx
      rcases List.mem_cons.mp hx with rfl | hx
      · rfl
      · exact hedits x hx
    · rw [stage, Program.run_perform_replied _ ha, hrun, Run.after_after]
      rfl

/-! ## The state of the switch -/

/-- The state after one more effect was answered. -/
def State.next : State → Exchanged → State
  | .waiting, ⟨.call (.writeStatus status), _⟩ => if isTunnelReady status then .switched else .passed
  | _, ⟨.call .hijack, .ok _⟩ => .takenOver
  | state, _ => state

/-- The state after a conversation. -/
def State.after (state : State) (asked : List Exchanged) : State :=
  asked.foldl State.next state

theorem State.next_waiting_iff {x : Exchanged} : State.next .waiting x = .waiting ↔ Quiet x := by
  obtain ⟨effect, reply⟩ := x
  cases effect with
  | call c =>
    cases c with
    | writeStatus status =>
      simp only [State.next, Quiet, commit?, reduceCtorEq, false_and, iff_false]
      split <;> simp
    | hijack => cases reply <;> simp [State.next, Quiet, commit?, takesOver]
    | _ => simp [State.next, Quiet, commit?, takesOver]
  | _ => simp [State.next, Quiet, commit?, takesOver]

theorem State.after_quiet {asked : List Exchanged} (h : ∀ x ∈ asked, Quiet x) :
    State.after .waiting asked = .waiting := by
  induction asked with
  | nil => rfl
  | cons x asked ih =>
    rw [State.after, List.foldl_cons, State.next_waiting_iff.mpr (h x (by simp))]
    exact ih fun y hy => h y (by simp [hy])

theorem State.after_append (state : State) (asked more : List Exchanged) :
    state.after (asked ++ more) = (state.after asked).after more :=
  List.foldl_append

theorem State.next_ne_waiting {state : State} (h : state ≠ .waiting) (x : Exchanged) :
    state.next x ≠ .waiting := by
  unfold State.next
  split <;> first | contradiction | exact h | simp

theorem State.after_ne_waiting {state : State} (h : state ≠ .waiting) (asked : List Exchanged) :
    state.after asked ≠ .waiting := by
  induction asked generalizing state with
  | nil => exact h
  | cons x asked ih => exact ih (State.next_ne_waiting h x)

/-- A switch that is not switched when it stops waiting is not switched later. -/
theorem State.after_ne_switched {state : State} (hw : state ≠ .waiting) (hs : state ≠ .switched)
    (asked : List Exchanged) : state.after asked ≠ .switched := by
  induction asked generalizing state with
  | nil => exact hs
  | cons x asked ih =>
    refine ih (State.next_ne_waiting hw x) ?_
    unfold State.next
    split <;> first | contradiction | exact hs | simp

/-- Unless the switch turns a commit, it lets an effect through and goes on in its next state. -/
theorem apply_perform (p : ProtocolSwitch) {state : State} {effect : Effect}
    (next : effect.Reply → Program α)
    (h : state = .waiting → effect ≠ .call (.writeStatus .ok)) :
    p.apply state (.perform effect next) =
      .perform effect fun reply => p.apply (state.next ⟨effect, reply⟩) (next reply) := by
  cases effect with
  | call c =>
    cases c with
    | writeStatus status =>
      cases state with
      | waiting =>
        have hs : isTunnelReady status = false := by simpa [isTunnelReady] using h rfl
        simp [apply, State.next, hs]
      | _ => simp [apply, State.next]
    | hijack =>
      simp only [apply, Program.perform.injEq, heq_eq_eq, true_and]
      funext reply
      cases reply <;> cases state <;> rfl
    | _ => cases state <;> simp [apply, State.next]
  | _ => cases state <;> simp [apply, State.next]

theorem apply_perform_ready (p : ProtocolSwitch) (next : Unit → Program α) :
    p.apply .waiting (.perform (.call (.writeStatus .ok)) next) =
      stage p.edits (.perform (.call (.writeStatus .switchingProtocols)) fun reply =>
        p.apply .switched (next reply)) := by
  simp [apply, isTunnelReady]

/-! ## Programs behind the switch -/

theorem only_stage {allowed : Effect → Prop} (hedit : ∀ e, allowed (.call (.edit e)))
    {q : Program α} (h : q.Only allowed) (edits : List Headers.Edit) :
    (stage edits q).Only allowed := by
  induction edits with
  | nil => exact h
  | cons edit edits ih => exact ⟨hedit edit, fun _ => ih⟩

theorem yields_stage {valid : α → Prop} {q : Program α} (h : q.Yields valid)
    (edits : List Headers.Edit) : (stage edits q).Yields valid := by
  induction edits with
  | nil => exact h
  | cons edit edits ih => exact fun _ => ih

/-- Behind the switch a program asks for what it asks for anyway, edits and a commit of 101. -/
theorem only_apply (p : ProtocolSwitch) {allowed : Effect → Prop}
    (hedit : ∀ e, allowed (.call (.edit e)))
    (hswitch : allowed (.call (.writeStatus .switchingProtocols))) {q : Program α}
    (h : q.Only allowed) : ∀ state, (p.apply state q).Only allowed := by
  induction q with
  | perform effect next ih =>
    intro state
    by_cases hturn : state = .waiting ∧ effect = .call (.writeStatus .ok)
    · obtain ⟨rfl, rfl⟩ := hturn
      have hcommit : (Program.perform (.call (.writeStatus .switchingProtocols)) fun reply =>
          p.apply .switched (next reply)).Only allowed := ⟨hswitch, fun reply => ih reply (h.2 reply) _⟩
      rw [apply_perform_ready]
      exact only_stage hedit hcommit p.edits
    · rw [apply_perform p next fun hs he => hturn ⟨hs, he⟩]
      exact ⟨h.1, fun reply => ih reply (h.2 reply) _⟩
  | _ => exact fun _ => trivial

theorem yields_apply (p : ProtocolSwitch) {valid : α → Prop} {q : Program α} (h : q.Yields valid) :
    ∀ state, (p.apply state q).Yields fun ended => valid ended.1 := by
  induction q with
  | returns value => exact fun _ => h
  | perform effect next ih =>
    intro state
    by_cases hturn : state = .waiting ∧ effect = .call (.writeStatus .ok)
    · obtain ⟨rfl, rfl⟩ := hturn
      have hcommit : (Program.perform (.call (.writeStatus .switchingProtocols)) fun reply =>
          p.apply .switched (next reply)).Yields fun ended => valid ended.1 :=
        fun reply => ih reply (h reply) _
      rw [apply_perform_ready]
      -- the edits get a name, or the accept token would be computed below
      generalize p.edits = edits
      exact yields_stage hcommit edits
    · rw [apply_perform p next fun hs he => hturn ⟨hs, he⟩]
      exact fun reply => ih reply (h reply) _
  | _ => exact fun _ => trivial

/-! ## Runs behind the switch -/

/-- A run, with the state of a switch that saw it from a state on. -/
def seen (state : State) (r : Run σ α) : Run σ (α × State) :=
  { outcome := r.outcome.map (·, state.after r.trace), state := r.state, trace := r.trace }

theorem seen_after (state : State) (x : Exchanged) (r : Run σ α) :
    seen state (r.after [x]) = (seen (state.next x) r).after [x] := rfl

/-- Once the switch has left its first state, it only watches. -/
theorem run_apply_of_ne_waiting (p : ProtocolSwitch) (w : World σ) (q : Program α) :
    ∀ {state : State} (s : σ), state ≠ .waiting →
      (p.apply state q).run w s = seen state (q.run w s) := by
  induction q with
  | returns value => exact fun _ _ => rfl
  | panics => exact fun _ _ => rfl
  | stalls => exact fun _ _ => rfl
  | perform effect next ih =>
    intro state s hs
    rw [apply_perform p next fun h => absurd h hs]
    cases ha : w.answer effect s with
    | waits t =>
      rw [Program.run_perform_waits _ ha, Program.run_perform_waits _ ha]
      rfl
    | replied reply t =>
      rw [Program.run_perform_replied _ ha, Program.run_perform_replied _ ha, seen_after,
        ih reply t (State.next_ne_waiting hs _)]

/-- A conversation turns at its first commit, if that is a commit of 200 and the connection was not
taken over before. -/
def Turns (asked before after : List Exchanged) : Prop :=
  asked = before ++ commit .ok :: after ∧ ∀ x ∈ before, Quiet x

theorem Turns.cons {x : Exchanged} (hx : Quiet x) {asked before after : List Exchanged}
    (h : Turns asked before after) : Turns (x :: asked) (x :: before) after := by
  obtain ⟨rfl, hquiet⟩ := h
  refine ⟨rfl, fun y hy => ?_⟩
  rcases List.mem_cons.mp hy with rfl | hy
  · exact hx
  · exact hquiet y hy

/-- A run that never turns is the run that it would be without the switch. -/
theorem run_apply_of_not_turns (p : ProtocolSwitch) (w : World σ) (q : Program α) :
    ∀ s, (∀ before after, ¬ Turns (q.run w s).trace before after) →
      (p.apply .waiting q).run w s = seen .waiting (q.run w s) := by
  induction q with
  | returns value => exact fun _ _ => rfl
  | panics => exact fun _ _ => rfl
  | stalls => exact fun _ _ => rfl
  | perform effect next ih =>
    intro s hturns
    have hready : effect ≠ .call (.writeStatus .ok) := by
      rintro rfl
      exact hturns [] _ ⟨rfl, by simp⟩
    rw [apply_perform p next fun _ => hready]
    cases ha : w.answer effect s with
    | waits t =>
      rw [Program.run_perform_waits _ ha, Program.run_perform_waits _ ha]
      rfl
    | replied reply t =>
      rw [Program.run_perform_replied _ ha] at hturns
      rw [Program.run_perform_replied _ ha, Program.run_perform_replied _ ha, seen_after]
      -- the switch goes on waiting over a quiet effect, and watches only from any other one on
      by_cases hx : Quiet ⟨effect, reply⟩
      · rw [State.next_waiting_iff.mpr hx]
        rw [ih reply t fun before after h => hturns _ after (h.cons hx)]
      · rw [run_apply_of_ne_waiting p w _ _ (mt State.next_waiting_iff.mp hx)]

/-- Where a program turns the switch, edits and a commit of 101 are made, and what is left of it runs
on. -/
theorem run_apply_ready (p : ProtocolSwitch) (w : World σ) (rest : Unit → Program α) (s : σ) :
    ∃ staged, (∀ x ∈ staged, isEdit x = true) ∧ w.Answers s staged (w.channel.editAll s p.edits) ∧
      (p.apply .waiting (.perform (.call (.writeStatus .ok)) rest)).run w s =
        ((p.apply .switched (rest ())).run w
          (w.channel.writeStatus .switchingProtocols (w.channel.editAll s p.edits))).after
            (staged ++ [commit .switchingProtocols]) := by
  obtain ⟨staged, hedits, hanswers, hrun⟩ := run_stage w
    (.perform (.call (.writeStatus .switchingProtocols)) fun reply => p.apply .switched (rest reply))
    p.edits s
  have ha : w.answer (.call (.writeStatus .switchingProtocols)) (w.channel.editAll s p.edits) =
    .replied () (w.channel.writeStatus .switchingProtocols (w.channel.editAll s p.edits)) := rfl
  refine ⟨staged, hedits, hanswers, ?_⟩
  rw [apply_perform_ready, hrun, Program.run_perform_replied _ ha, Run.after_after]
  rfl

/-- Where a run turns, the channel is given edits that complete the handshake and a commit of 101;
what is left of the program goes on from there as it would without the switch. -/
theorem run_apply_of_turns (p : ProtocolSwitch) {w : World σ} {before : List Exchanged} :
    ∀ {q rest : Program α} {s t : σ}, (∀ x ∈ before, Quiet x) →
      q.Asks (before ++ [commit .ok]) rest → w.Answers s before t → ∃ staged u,
        (∀ x ∈ staged, isEdit x = true) ∧ w.Answers t staged u ∧
          p.Completes (w.channel.headers t) (w.channel.headers u) ∧
          (p.apply .waiting q).run w s =
            (seen .switched (rest.run w (w.channel.writeStatus .switchingProtocols u))).after
              (before ++ staged ++ [commit .switchingProtocols]) := by
  induction before with
  | nil =>
    intro q rest s t _ hq hw
    rw [List.nil_append] at hq
    cases hw
    cases hq with
    | @cons _ _ next _ _ hrest =>
    obtain rfl := hrest.eq_of_nil
    obtain ⟨staged, hedits, hstaged, hrun⟩ := p.run_apply_ready w next s
    refine ⟨staged, _, hedits, hstaged, ?_, ?_⟩
    · rw [w.channel.headers_editAll]
      exact p.completes_edits _
    · rw [hrun, run_apply_of_ne_waiting p w _ _ (by simp)]
      rfl
  | cons x before ih =>
    intro q rest s t hquiet hq hw
    have hx : Quiet x := hquiet x (by simp)
    cases hq with
    | @cons effect reply next _ _ hrest =>
    cases hw with
    | cons ha hw =>
    have hready : effect ≠ .call (.writeStatus .ok) := by
      rintro rfl
      exact not_quiet_commit _ hx
    obtain ⟨staged, u, hedits, hstaged, hcompletes, hrun⟩ :=
      ih (fun y hy => hquiet y (by simp [hy])) hrest hw
    refine ⟨staged, u, hedits, hstaged, hcompletes, ?_⟩
    rw [apply_perform p next fun _ => hready, Program.run_perform_replied _ ha,
      State.next_waiting_iff.mpr hx, hrun, Run.after_after]
    rfl

/-! ## The conversation with the channel -/

/-- What of a conversation with a switch reaches the channel behind it, whose world was in a state
before. -/
inductive Conveys (p : ProtocolSwitch) (w : World σ) (s : σ) (asked : List Exchanged) :
    List Exchanged → Prop
  /-- All of it and nothing else, if it never turns. -/
  | unchanged : (∀ before after, ¬ Turns asked before after) → Conveys p w s asked asked
  /-- Where it turns, edits that complete the handshake and a commit of 101; all of it before and
  after. -/
  | turned {before after staged : List Exchanged} {t u : σ} : Turns asked before after →
      w.Answers s before t → w.Answers t staged u → (∀ x ∈ staged, isEdit x = true) →
      p.Completes (w.channel.headers t) (w.channel.headers u) →
      Conveys p w s asked (before ++ staged ++ commit .switchingProtocols :: after)

/-- **A protocol switch is an exact one-shot transducer** over any channel. A program behind a fresh
switch holds some conversation and is left with some rest; the channel answers the run's trace, which
is that conversation as `Conveys` says; the rest stops as it would without the switch, also when it
waits for the channel; and the state of the switch follows from the conversation. -/
theorem run_apply_waiting (p : ProtocolSwitch) (w : World σ) (q : Program α) (s : σ) :
    ∃ asked rest t outcome,
      q.Asks asked rest ∧
      w.Answers s ((p.apply .waiting q).run w s).trace t ∧
      rest.Stops w t outcome ((p.apply .waiting q).run w s).state ∧
      ((p.apply .waiting q).run w s).outcome = outcome.map (·, State.after .waiting asked) ∧
      p.Conveys w s asked ((p.apply .waiting q).run w s).trace := by
  obtain ⟨stop, final, hasks, hanswers, hstops⟩ := q.asks_run w s
  by_cases h : ∃ before after, Turns (q.run w s).trace before after
  · obtain ⟨before, after, htrace, hquiet⟩ := h
    rw [htrace] at hasks hanswers
    rw [List.append_cons] at hasks
    -- what is left of the program at the turn runs again, from where the commit of 101 leads
    obtain ⟨mid, hmid, -⟩ := hasks.split
    obtain ⟨t, hbefore, -⟩ := hanswers.split
    obtain ⟨staged, u, hedits, hstaged, hcompletes, hrun⟩ :=
      p.run_apply_of_turns hquiet hmid hbefore
    obtain ⟨rest, v, hrest, hafter, hstops⟩ :=
      mid.asks_run w (w.channel.writeStatus .switchingProtocols u)
    have hcommit : w.Answers u [commit .switchingProtocols]
      (w.channel.writeStatus .switchingProtocols u) := .cons rfl .nil
    rw [hrun]
    refine ⟨_, rest, v, _, hmid.trans hrest, ((hbefore.trans hstaged).trans hcommit).trans hafter,
      hstops, ?_, ?_⟩
    · rw [State.after_append, State.after_append, State.after_quiet hquiet]
      rfl
    · rw [Run.after_trace, List.append_assoc, List.append_assoc, List.singleton_append,
        List.singleton_append]
      exact .turned ⟨rfl, hquiet⟩ hbefore hstaged hedits hcompletes
  · have hturns : ∀ before after, ¬ Turns (q.run w s).trace before after :=
      fun before after hb => h ⟨before, after, hb⟩
    rw [run_apply_of_not_turns p w q s hturns]
    exact ⟨_, stop, final, _, hasks, hanswers, hstops, rfl, .unchanged hturns⟩

end ProtocolSwitch

end UpgradeBridge
