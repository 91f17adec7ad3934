/-
A protocol switch as a response channel of its own. A program behind a switch
runs on the channel that the switch makes of another one: it ends there in the
same way, and the other channel comes to the same state (`run_apply`). What the
program says to the one and what reaches the other differ as `Conveys` says
(`conveys_run`).
-/
import UpgradeBridge.Proofs.ProtocolSwitch

namespace UpgradeBridge

variable {σ α : Type}

namespace ProtocolSwitch

open Exchanged

/-- The step with a state of the switch beside it. -/
def beside (state : State) : Step σ α → Step (σ × State) α
  | .replied reply s => .replied reply (s, state)
  | .waits s => .waits (s, state)

/-- The response channel that a switch makes of another one. -/
def channel (p : ProtocolSwitch) (inner : Channel σ) : Channel (σ × State) where
  headers x := inner.headers x.1
  setHeaders x h := (inner.setHeaders x.1 h, x.2)
  writeStatus status
    | (s, .waiting) =>
      if isTunnelReady status then
        (inner.writeStatus .switchingProtocols (inner.editAll s p.edits), .switched)
      else (inner.writeStatus status s, .passed)
    | (s, state) => (inner.writeStatus status s, state)
  write data x := beside x.2 (inner.write data x.1)
  capabilities x := inner.capabilities x.1
  flush x := beside x.2 (inner.flush x.1)
  hijack x :=
    match inner.hijack x.1 with
    | .replied (.ok hijacked) s => .replied (.ok hijacked) (s, .takenOver)
    | step => beside x.2 step
  transmit data x :=
    let (reply, s) := inner.transmit data x.1
    (reply, (s, x.2))
  headers_setHeaders x h := inner.headers_setHeaders x.1 h

/-- The world in front of a switch. -/
def world (p : ProtocolSwitch) (w : World σ) : World (σ × State) :=
  ⟨p.channel w.channel, w.network⟩

/-- The step with the state beside it that a switch comes to. -/
def advance (state : State) {effect : Effect} : Step σ effect.Reply → Step (σ × State) effect.Reply
  | .replied reply s => .replied reply (s, state.next ⟨effect, reply⟩)
  | .waits s => .waits (s, state)

/-- Unless it turns a commit, the switch hands an effect on and watches. -/
theorem answer_world (p : ProtocolSwitch) (w : World σ) (s : σ) {state : State} {effect : Effect}
    (h : state = .waiting → effect ≠ .call (.writeStatus .ok)) :
    (p.world w).answer effect (s, state) = advance state (w.answer effect s) := by
  cases effect with
  | call c =>
    cases c with
    | writeStatus status =>
      cases state with
      | waiting =>
        have hstatus : isTunnelReady status = false := by simpa [isTunnelReady] using h rfl
        simp [World.answer, world, Channel.perform, channel, advance, State.next, hstatus]
      | _ => rfl
    | hijack =>
      simp only [World.answer, world, Channel.perform, channel]
      cases w.channel.hijack s with
      | waits t => rfl
      | replied reply t => cases reply <;> cases state <;> rfl
    | write data =>
      simp only [World.answer, world, Channel.perform, channel]
      cases w.channel.write data s <;> cases state <;> rfl
    | flush =>
      simp only [World.answer, world, Channel.perform, channel]
      cases w.channel.flush s <;> cases state <;> rfl
    | _ => cases state <;> rfl
  | relay connection =>
    simp only [World.answer, world]
    cases w.network.relay connection <;> cases state <;> rfl
  | _ => cases state <;> rfl

theorem answer_ready (p : ProtocolSwitch) (w : World σ) (s : σ) :
    (p.world w).answer (.call (.writeStatus .ok)) (s, .waiting) = .replied ()
      (w.channel.writeStatus .switchingProtocols (w.channel.editAll s p.edits), .switched) := rfl

/-- A program behind a switch ends as it does on the channel that the switch makes, and leaves the
channel behind the switch in the same state. -/
theorem run_apply (p : ProtocolSwitch) (w : World σ) (q : Program α) : ∀ (state : State) (s : σ),
    ((p.apply state q).run w s).outcome = (q.run (p.world w) (s, state)).outcome.map
      (·, (q.run (p.world w) (s, state)).state.2) ∧
    ((p.apply state q).run w s).state = (q.run (p.world w) (s, state)).state.1 := by
  induction q with
  | returns value => exact fun _ _ => ⟨rfl, rfl⟩
  | panics => exact fun _ _ => ⟨rfl, rfl⟩
  | stalls => exact fun _ _ => ⟨rfl, rfl⟩
  | perform effect rest ih =>
    intro state s
    by_cases hturn : state = .waiting ∧ effect = .call (.writeStatus .ok)
    · obtain ⟨rfl, rfl⟩ := hturn
      obtain ⟨staged, -, -, hrun⟩ := p.run_apply_ready w rest s
      rw [hrun, Program.run_perform_replied _ (p.answer_ready w s)]
      exact ih () .switched _
    · have hthrough : state = .waiting → effect ≠ .call (.writeStatus .ok) :=
        fun hs he => hturn ⟨hs, he⟩
      have hanswer := p.answer_world w s hthrough
      rw [apply_perform p rest hthrough]
      cases ha : w.answer effect s with
      | waits t =>
        rw [ha] at hanswer
        rw [Program.run_perform_waits _ ha, Program.run_perform_waits _ hanswer]
        exact ⟨rfl, rfl⟩
      | replied reply t =>
        rw [ha] at hanswer
        rw [Program.run_perform_replied _ ha, Program.run_perform_replied _ hanswer]
        exact ih reply _ t

/-! ## The conversations on either side -/

/-- Once it has left its first state, the switch hands everything on. -/
theorem trace_of_ne_waiting (p : ProtocolSwitch) (w : World σ) (q : Program α) :
    ∀ {state : State} (s : σ), state ≠ .waiting →
      (q.run (p.world w) (s, state)).trace = (q.run w s).trace := by
  induction q with
  | perform effect rest ih =>
    intro state s hs
    have hthrough : state = .waiting → effect ≠ .call (.writeStatus .ok) := fun h => absurd h hs
    have hanswer := p.answer_world w s hthrough
    cases ha : w.answer effect s with
    | waits t =>
      rw [ha] at hanswer
      rw [Program.run_perform_waits _ ha, Program.run_perform_waits _ hanswer]
    | replied reply t =>
      rw [ha] at hanswer
      rw [Program.run_perform_replied _ ha, Program.run_perform_replied _ hanswer, Run.after_trace,
        Run.after_trace, ih reply t (State.next_ne_waiting hs _)]
  | _ => exact fun _ _ => rfl

theorem not_turns_cons {x : Exchanged} {asked : List Exchanged} (hx : ¬ Quiet x)
    (hready : x ≠ commit .ok) (before after : List Exchanged) : ¬ Turns (x :: asked) before after := by
  rintro ⟨heq, hquiet⟩
  cases before with
  | nil => exact hready (List.cons.inj heq).1
  | cons y before =>
    obtain ⟨rfl, -⟩ := List.cons.inj heq
    exact hx (hquiet x (by simp))

theorem Conveys.cons {p : ProtocolSwitch} {w : World σ} {s t : σ} {effect : Effect}
    {reply : effect.Reply} {asked passed : List Exchanged} (h : p.Conveys w t asked passed)
    (ha : w.answer effect s = .replied reply t) (hx : Quiet ⟨effect, reply⟩) :
    p.Conveys w s (⟨effect, reply⟩ :: asked) (⟨effect, reply⟩ :: passed) := by
  cases h with
  | unchanged hturns =>
    refine .unchanged ?_
    rintro before after ⟨heq, hquiet⟩
    cases before with
    | nil => exact not_quiet_commit _ ((List.cons.inj heq).1 ▸ hx)
    | cons y before =>
      exact hturns before after ⟨(List.cons.inj heq).2, fun z hz => hquiet z (by simp [hz])⟩
  | turned hturn hbefore hstaged hedits hcompletes =>
    exact .turned (hturn.cons hx) (.cons ha hbefore) hstaged hedits hcompletes

/-- What a program says to the channel that a fresh switch makes is conveyed to the channel behind
the switch. -/
theorem conveys_run (p : ProtocolSwitch) (w : World σ) (q : Program α) : ∀ s,
    p.Conveys w s (q.run (p.world w) (s, .waiting)).trace ((p.apply .waiting q).run w s).trace := by
  induction q with
  | perform effect rest ih =>
    intro s
    by_cases hready : effect = .call (.writeStatus .ok)
    · subst hready
      obtain ⟨staged, hedits, hstaged, hrun⟩ := p.run_apply_ready w rest s
      rw [hrun, Program.run_perform_replied _ (p.answer_ready w s), Run.after_trace, Run.after_trace,
        p.trace_of_ne_waiting w _ _ (by simp), p.run_apply_of_ne_waiting w _ _ (by simp)]
      have hturn : Turns (commit .ok :: ((rest ()).run w (w.channel.writeStatus .switchingProtocols
        (w.channel.editAll s p.edits))).trace) [] _ := ⟨rfl, by simp⟩
      have hcompletes : p.Completes (w.channel.headers s)
          (w.channel.headers (w.channel.editAll s p.edits)) := by
        rw [w.channel.headers_editAll]
        exact p.completes_edits _
      have hconveys := Conveys.turned hturn .nil hstaged hedits hcompletes
      rw [List.nil_append, List.append_cons] at hconveys
      exact hconveys
    · have hthrough : State.waiting = .waiting → effect ≠ .call (.writeStatus .ok) := fun _ => hready
      have hanswer := p.answer_world w s hthrough
      rw [apply_perform p rest hthrough]
      cases ha : w.answer effect s with
      | waits t =>
        rw [ha] at hanswer
        rw [Program.run_perform_waits _ ha, Program.run_perform_waits _ hanswer]
        exact .unchanged fun before after h => by cases before <;> cases h.1
      | replied reply t =>
        rw [ha] at hanswer
        rw [Program.run_perform_replied _ ha, Program.run_perform_replied _ hanswer, Run.after_trace,
          Run.after_trace]
        by_cases hx : Quiet ⟨effect, reply⟩
        · rw [State.next_waiting_iff.mpr hx]
          exact (ih reply t).cons ha hx
        · have hnext := mt State.next_waiting_iff.mp hx
          rw [p.trace_of_ne_waiting w _ _ hnext, p.run_apply_of_ne_waiting w _ _ hnext]
          exact .unchanged (not_turns_cons hx fun h => hready (congrArg Sigma.fst h))
  | _ => exact fun s => .unchanged fun before after h => by cases before <;> cases h.1

end ProtocolSwitch

end UpgradeBridge
