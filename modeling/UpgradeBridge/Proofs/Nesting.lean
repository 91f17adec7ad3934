/-
Switches around one another. What a handler says to the nearest of them reaches
the channel behind the farthest one exactly as the nearest alone would convey it:
where the nearest turns a commit of 200, the others see a commit of 101 and let it
pass, and everything else they hand on anyway.

The list of some switches starts with the one nearest to the handler. `nested` runs
a program behind them, and `around` is the channel that they make of another one;
`State.behind` tells the state of the farther switches from that of the nearest.
-/
import UpgradeBridge.Proofs.SwitchedChannel

namespace UpgradeBridge

variable {σ τ υ α : Type}

namespace ProtocolSwitch

open Exchanged

/-- The state of a switch behind another one that is in a state. -/
def State.behind : State → State
  | .waiting => .waiting
  | .switched => .passed
  | .passed => .passed
  | .takenOver => .takenOver

theorem State.behind_behind (state : State) : state.behind.behind = state.behind := by
  cases state <;> rfl

theorem State.behind_eq_waiting {state : State} : state.behind = .waiting ↔ state = .waiting := by
  cases state <;> simp [State.behind]

/-- Unless the nearer switch turns a commit, both watch the same. -/
theorem State.behind_next {state : State} {x : Exchanged}
    (h : state = .waiting → x.1 ≠ .call (.writeStatus .ok)) :
    state.behind.next x = (state.next x).behind := by
  obtain ⟨effect, reply⟩ := x
  cases effect with
  | call c =>
    cases c with
    | writeStatus status =>
      cases state with
      | waiting =>
        have hs : isTunnelReady status = false := by simpa [isTunnelReady] using h rfl
        simp [State.behind, State.next, hs]
      | _ => rfl
    | hijack => cases reply <;> cases state <;> rfl
    | _ => cases state <;> rfl
  | _ => cases state <;> rfl

/-! ## Programs behind switches -/

/-- Edits are no matter of a switch. -/
theorem apply_stage (p : ProtocolSwitch) (state : State) (edits : List Headers.Edit)
    (q : Program α) : p.apply state (stage edits q) = stage edits (p.apply state q) := by
  induction edits with
  | nil => rfl
  | cons edit edits ih =>
    have hstate (reply : Bool) : state.next ⟨.call (.edit edit), reply⟩ = state := by
      cases state <;> rfl
    rw [stage, apply_perform p _ (fun _ he => by cases he)]
    simp only [hstate, ih]
    rfl

/-- A switch behind another one does nothing, and its state follows from the nearer one's. -/
theorem apply_apply (p' p : ProtocolSwitch) (q : Program α) : ∀ state : State,
    p'.apply state.behind (p.apply state q) =
      (p.apply state q).bind fun ended => .returns (ended, ended.2.behind) := by
  induction q with
  | returns value => exact fun _ => rfl
  | panics => exact fun _ => rfl
  | stalls => exact fun _ => rfl
  | perform effect next ih =>
    intro state
    by_cases hturn : state = .waiting ∧ effect = .call (.writeStatus .ok)
    · obtain ⟨rfl, rfl⟩ := hturn
      rw [apply_perform_ready, apply_stage, bind_stage]
      refine congrArg (stage p.edits) ?_
      rw [State.behind, apply_perform p' _ fun _ he => by cases he]
      exact congrArg (Program.perform _) (funext fun reply => ih reply .switched)
    · have hthrough : state = .waiting → effect ≠ .call (.writeStatus .ok) :=
        fun hs he => hturn ⟨hs, he⟩
      have hbehind : state.behind = .waiting → effect ≠ .call (.writeStatus .ok) :=
        fun hs => hthrough (State.behind_eq_waiting.mp hs)
      rw [apply_perform p next hthrough, apply_perform p' _ hbehind]
      simp only [Program.bind]
      refine congrArg (Program.perform effect) (funext fun reply => ?_)
      rw [State.behind_next hthrough, ih]

/-- Runs a program behind some switches; returns the states that they end in too. -/
def nested : List ProtocolSwitch → {α : Type} → Program α → Program (α × List State)
  | [], _, q => q.bind fun value => .returns (value, [])
  | p :: ps, _, q => (nested ps (p.apply .waiting q)).bind fun ended =>
      .returns (ended.1.1, ended.1.2 :: ended.2)

/-- Of some switches around one another the nearest does what all of them do. -/
theorem nested_cons (p : ProtocolSwitch) (ps : List ProtocolSwitch) (q : Program α) :
    nested (p :: ps) q = (p.apply .waiting q).bind fun ended =>
      .returns (ended.1, ended.2 :: List.replicate ps.length ended.2.behind) := by
  induction ps generalizing p α with
  | nil =>
    rw [nested, nested, Program.bind_bind]
    rfl
  | cons p' ps ih =>
    have hbehind : p'.apply .waiting (p.apply .waiting q) = (p.apply .waiting q).bind fun ended =>
      .returns (ended, ended.2.behind) := apply_apply p' p q .waiting
    rw [nested, ih, hbehind, Program.bind_bind, Program.bind_bind]
    simp only [Program.bind, State.behind_behind, List.length_cons, List.replicate_succ]

/-! ## Channels behind switches -/

/-- The states of a channel and of some switches around it. -/
def Around (σ : Type) : List ProtocolSwitch → Type
  | [] => σ
  | _ :: ps => Around σ ps × State

namespace Around

/-- The channel is in one state, and all of the switches in another. -/
def even (s : σ) (state : State) : ∀ ps, Around σ ps
  | [] => s
  | _ :: ps => (even s state ps, state)

/-- The state of the channel behind the switches. -/
def inner : ∀ {ps}, Around σ ps → σ
  | [], s => s
  | _ :: _, x => inner x.1

/-- The states of the switches, the nearest first. -/
def states : ∀ {ps}, Around σ ps → List State
  | [], _ => []
  | _ :: _, x => x.2 :: states x.1

theorem inner_even (s : σ) (state : State) (ps : List ProtocolSwitch) :
    (even s state ps).inner = s := by
  induction ps with
  | nil => rfl
  | cons p ps ih => exact ih

theorem states_even (s : σ) (state : State) (ps : List ProtocolSwitch) :
    (even s state ps).states = List.replicate ps.length state := by
  induction ps with
  | nil => rfl
  | cons p ps ih => exact congrArg (state :: ·) ih

end Around

/-- The world in front of some switches around one another. -/
def around (w : World σ) : ∀ ps, World (Around σ ps)
  | [] => w
  | p :: ps => p.world (around w ps)

/-- A world answers as another one does, and its states are those of the other in disguise. -/
def Mimics (w : World σ) (w' : World τ) (f : σ → τ) : Prop :=
  ∀ effect s, w'.answer effect (f s) = (w.answer effect s).map f

theorem Mimics.trans {w₁ : World σ} {w₂ : World τ} {w₃ : World υ} {f : σ → τ} {g : τ → υ}
    (h : Mimics w₁ w₂ f) (h' : Mimics w₂ w₃ g) : Mimics w₁ w₃ (g ∘ f) := by
  intro effect s
  rw [Function.comp_apply, h', h, Step.map_map]

theorem Mimics.run {w : World σ} {w' : World τ} {f : σ → τ} (h : Mimics w w' f) (q : Program α) :
    ∀ s, q.run w' (f s) = ⟨(q.run w s).outcome, f (q.run w s).state, (q.run w s).trace⟩ := by
  induction q with
  | perform effect next ih =>
    intro s
    have hanswer := h effect s
    cases ha : w.answer effect s with
    | waits t =>
      rw [ha] at hanswer
      rw [Program.run_perform_waits _ ha, Program.run_perform_waits _ hanswer]
    | replied reply t =>
      rw [ha] at hanswer
      rw [Program.run_perform_replied _ ha, Program.run_perform_replied _ hanswer, ih]
      rfl
  | _ => exact fun _ => rfl

theorem editAll_channel (p : ProtocolSwitch) (channel : Channel σ) (edits : List Headers.Edit)
    (state : State) (s : σ) :
    (p.channel channel).editAll (s, state) edits = (channel.editAll s edits, state) := by
  induction edits generalizing s with
  | nil => rfl
  | cons edit edits ih => exact ih _

/-- Two switches around one another answer as the nearer one alone. -/
theorem mimics_behind (p p' : ProtocolSwitch) (w : World σ) :
    Mimics (p.world w) (p.world (p'.world w)) fun x => ((x.1, x.2.behind), x.2) := by
  rintro effect ⟨s, state⟩
  by_cases hturn : state = .waiting ∧ effect = .call (.writeStatus .ok)
  · obtain ⟨rfl, rfl⟩ := hturn
    rw [answer_ready, answer_ready, Step.map]
    have hedits := editAll_channel p' w.channel p.edits State.waiting s
    simp only [State.behind, world, hedits]
    rfl
  · have hthrough : state = .waiting → effect ≠ .call (.writeStatus .ok) :=
      fun hs he => hturn ⟨hs, he⟩
    have hbehind : state.behind = .waiting → effect ≠ .call (.writeStatus .ok) :=
      fun hs => hthrough (State.behind_eq_waiting.mp hs)
    rw [answer_world p _ _ hthrough, answer_world p' w s hbehind, answer_world p w s hthrough]
    cases w.answer effect s with
    | waits t => rfl
    | replied reply t =>
      have hnext : state.behind.next ⟨effect, reply⟩ = (state.next ⟨effect, reply⟩).behind :=
        State.behind_next hthrough
      simp only [advance, Step.map, hnext]

/-- Some switches around one another answer as the nearest alone, and it tells the states of all. -/
theorem mimics_around (p : ProtocolSwitch) (w : World σ) : ∀ ps, Mimics (p.world w)
    (around w (p :: ps)) fun x => (Around.even x.1 x.2.behind ps, x.2)
  | [] => fun effect s => (Step.map_id ((p.world w).answer effect s)).symm
  | p' :: ps => (mimics_around p w ps).trans (mimics_behind p p' (around w ps))

/-- A program behind some switches ends as it does on the channel that they make, and leaves the
channel behind them in the same state. -/
theorem run_nested (w : World σ) (ps : List ProtocolSwitch) (q : Program α) (s : σ) :
    let r := q.run (around w ps) (.even s .waiting ps)
    ((nested ps q).run w s).outcome = r.outcome.map (·, r.state.states) ∧
      ((nested ps q).run w s).state = r.state.inner := by
  induction ps generalizing α with
  | nil =>
    rw [nested, Program.run_bind_returns]
    exact ⟨rfl, rfl⟩
  | cons p ps ih =>
    intro r
    obtain ⟨houtcome, hstate⟩ := ih (p.apply .waiting q)
    obtain ⟨happly, hinner⟩ := p.run_apply (around w ps) q .waiting (.even s .waiting ps)
    rw [nested, Program.run_bind_returns, Run.map_state, Run.map]
    refine ⟨?_, hstate.trans (congrArg Around.inner hinner)⟩
    simp only [houtcome, happly, hinner, Outcome.map_map]
    rfl

/-- **Of switches around one another the nearest to the handler does what all of them do.** A program
behind them runs as it does behind that one: it ends with the same value, it is answered the same, and
the channel behind all of them is asked for the same and comes to the same state, by what the nearest
conveys to it. Wherever the program stops, the other switches wait if and only if the nearest does, are
taken over if and only if it is, and otherwise they have let a commit pass. -/
theorem nearest_suffices (p : ProtocolSwitch) (ps : List ProtocolSwitch) (w : World σ)
    (q : Program α) (s : σ) :
    let all := q.run (around w (p :: ps)) (.even s .waiting (p :: ps))
    let one := q.run (p.world w) (s, .waiting)
    let asked := (nested (p :: ps) q).run w s
    (all.outcome = one.outcome ∧ all.trace = one.trace ∧ all.state.inner = one.state.1) ∧
    (∃ others, all.state.states = one.state.2 :: others ∧ others.length = ps.length ∧
      ∀ other ∈ others, (other = .waiting ↔ one.state.2 = .waiting) ∧
        (other = .takenOver ↔ one.state.2 = .takenOver) ∧
        (other ≠ .waiting → other ≠ .takenOver → other = .passed)) ∧
    asked.outcome = one.outcome.map (·, all.state.states) ∧ asked.state = one.state.1 ∧
    asked.trace = ((p.apply .waiting q).run w s).trace ∧ p.Conveys w s one.trace asked.trace := by
  intro all one asked
  have hall : all =
      ⟨one.outcome, (.even one.state.1 one.state.2.behind ps, one.state.2), one.trace⟩ :=
    (mimics_around p w ps).run q (s, .waiting)
  have hstates : all.state.states = one.state.2 :: List.replicate ps.length one.state.2.behind := by
    rw [hall]
    exact congrArg (one.state.2 :: ·) (Around.states_even ..)
  have hinner : all.state.inner = one.state.1 := by
    rw [hall]
    exact Around.inner_even ..
  have hasked : asked.trace = ((p.apply .waiting q).run w s).trace := by
    simp only [asked, nested_cons, Program.run_bind_returns]
    rfl
  have houtcome : all.outcome = one.outcome := by rw [hall]
  obtain ⟨hended, hleft⟩ := run_nested w (p :: ps) q s
  refine ⟨⟨houtcome, by rw [hall], hinner⟩,
    ⟨_, hstates, List.length_replicate, fun other hother => ?_⟩,
    hended.trans (congrArg (Outcome.map _) houtcome), hleft.trans hinner, hasked, ?_⟩
  · rw [List.eq_of_mem_replicate hother]
    cases one.state.2 <;> simp [State.behind]
  · rw [hasked]
    exact p.conveys_run w q s

end ProtocolSwitch

end UpgradeBridge
