/-
Pipelines as folds, and their stages as data. A pipeline is the right fold of its
middleware, whatever they are.

A middleware that calls the next stage at most once is given as a `Stage`: what it
does before the call, how it answers the effects of the next stage while that runs,
which is the channel that it hands on, and what it makes of what the call returned.
Tunnels and scripts are such stages.
-/
import UpgradeBridge.Proofs.Pipeline

namespace UpgradeBridge

variable {α β : Type}

/-! ## How programs end -/

/-- Both broke off, or both wait. -/
inductive Outcome.Halts : Outcome α → Outcome β → Prop
  | panicked : Halts .panicked .panicked
  | pending : Halts .pending .pending

theorem Outcome.Halts.eq {o o' : Outcome α} (h : o.Halts o') : o = o' := by
  cases h <;> rfl

/-- A program may hold a conversation and then end so; it waits where an effect is not answered. -/
inductive Program.Ends : Program α → List Exchanged → Outcome α → Prop
  | returned {value} : Ends (.returns value) [] (.returned value)
  | panicked : Ends .panics [] .panicked
  | stalled : Ends .stalls [] .pending
  | unanswered {effect next} : Ends (.perform effect next) [] .pending
  | answered {effect reply next asked o} : Ends (next reply) asked o →
      Ends (.perform effect next) (⟨effect, reply⟩ :: asked) o

theorem Program.Yields.ends {valid : α → Prop} {q : Program α} {asked : List Exchanged}
    {o : Outcome α} (h : q.Yields valid) (hends : q.Ends asked o) {value : α}
    (ho : o = .returned value) : valid value := by
  induction hends with
  | returned =>
    cases ho
    exact h
  | answered _ ih => exact ih (h _) ho
  | _ => cases ho

/-! ## Stages as data -/

/-- What serving a request comes to. -/
abbrev Verdict := Except HandlerError Unit

/-- A middleware that calls the next stage at most once. -/
structure Stage where
  /-- What it keeps while the next stage runs. -/
  Kept : Type
  /-- What is done first; then it is over, or a request is handed on. -/
  opening : Request → Program (Verdict ⊕ Request × Kept)
  /-- The channel that is handed on with the request: how it answers an effect. -/
  answer : (effect : Effect) → Kept → Program (effect.Reply × Kept)
  /-- What is made of what the next stage returned. -/
  closing : Verdict → Kept → Program Verdict

namespace Stage

/-- Runs a program on the channel that a stage hands on; returns what the stage then keeps too. -/
def carry (m : Stage) : m.Kept → Program α → Program (α × m.Kept)
  | kept, .returns value => .returns (value, kept)
  | _, .panics => .panics
  | _, .stalls => .stalls
  | kept, .perform effect next => (m.answer effect kept).bind fun answered =>
    m.carry answered.2 (next answered.1)

/-- The middleware that a stage is. -/
def middleware (m : Stage) : Middleware := fun next request =>
  (m.opening request).bind fun
    | .inl served => .returns served
    | .inr (request, kept) => (m.carry kept (next request)).bind fun ended =>
      m.closing ended.1 ended.2

/-- A stage that hands on every effect runs a program as it is. -/
theorem carry_eq (m : Stage) {kept : m.Kept} (q : Program α)
    (h : ∀ effect, m.answer effect kept = .perform effect fun reply => .returns (reply, kept)) :
    m.carry kept q = q.bind fun value => .returns (value, kept) := by
  induction q with
  | perform effect next ih =>
    rw [carry, h]
    exact congrArg (Program.perform effect) (funext ih)
  | _ => rfl

/-- The stage returns an error of the next stage, if it returns. -/
def HandsOn (m : Stage) (error : HandlerError) : Prop :=
  ∀ kept, (m.closing (.error error) kept).Yields (· = .error error)

end Stage

/-- A tunnel as a stage: the channel that it hands on is a switch, unless it has nothing to do. -/
abbrev Tunnel.stage (alphabet : Base64.Alphabet) : Stage where
  Kept := Option (ProtocolSwitch × ProtocolSwitch.State)
  opening request :=
    match Upgrade.detect request with
    | none => .returns (.inr (request, none))
    | some u =>
      match u.retarget request with
      | .error error => .returns (.inl (.error error))
      | .ok connect => .perform (.call .capabilities) fun capabilities =>
        match capabilities.missing with
        | some capability => .returns (.inl (.error (.lacksCapability capability)))
        | none => .returns (.inr (connect, some ({ key := u.key, alphabet }, .waiting)))
  answer effect
    | none => .perform effect fun reply => .returns (reply, none)
    | some (p, state) => (p.apply state (.perform effect .returns)).bind fun answered =>
      .returns (answered.1, some (p, answered.2))
  closing served _ := .returns served

namespace Tunnel

theorem carry_some (a : Base64.Alphabet) (p : ProtocolSwitch) (q : Program α) : ∀ state,
    (stage a).carry (some (p, state)) q =
      (p.apply state q).bind fun ended => .returns (ended.1, some (p, ended.2)) := by
  induction q with
  | perform effect next ih =>
    intro state
    have hcarry : (stage a).carry (some (p, state)) (.perform effect next) =
        (p.apply state (.perform effect .returns)).bind fun answered =>
          (stage a).carry (some (p, answered.2)) (next answered.1) :=
      Program.bind_bind ..
    rw [hcarry]
    by_cases hturn : state = .waiting ∧ effect = .call (.writeStatus .ok)
    · obtain ⟨rfl, rfl⟩ := hturn
      rw [p.apply_perform_ready, p.apply_perform_ready, ProtocolSwitch.bind_stage,
        ProtocolSwitch.bind_stage]
      exact congrArg (ProtocolSwitch.stage p.edits ∘ Program.perform _)
        (funext fun reply => ih reply _)
    · have hthrough : state = .waiting → effect ≠ .call (.writeStatus .ok) :=
        fun hs he => hturn ⟨hs, he⟩
      rw [p.apply_perform _ hthrough, p.apply_perform _ hthrough]
      exact congrArg (Program.perform effect) (funext fun reply => ih reply _)
  | _ => exact fun _ => rfl

/-- A tunnel calls the next stage at most once, and this is how. -/
theorem middleware_stage (a : Base64.Alphabet) : (stage a).middleware = tunnel a := by
  funext next r
  cases hdetect : Upgrade.detect r with
  | none =>
    have hopening : (stage a).opening r = .returns (.inr (r, none)) := by simp only [stage, hdetect]
    have hserve : (stage a).middleware next r =
        ((stage a).carry none (next r)).bind fun ended => .returns ended.1 := by
      rw [Stage.middleware, hopening]
      rfl
    rw [tunnel_of_not_detect a next hdetect, hserve, Stage.carry_eq _ _ fun _ => rfl]
    exact (Program.bind_bind ..).trans (Program.bind_returns _)
  | some u =>
    simp only [tunnel, hdetect, Stage.middleware]
    cases hretarget : u.retarget r with
    | error error =>
      simp only [stage, hretarget, bridge]
      rfl
    | ok connect =>
      simp only [bridge_of_retarget a next hretarget]
      simp only [stage, Program.bind]
      refine congrArg (Program.perform _) (funext fun capabilities => ?_)
      unfold probed
      cases capabilities.missing with
      | some capability => rfl
      | none =>
        simp only [Program.bind, behind]
        exact (congrArg (Program.bind · _) (carry_some a _ _ _)).trans (Program.bind_bind ..)

end Tunnel

/-- A script as a stage: the channel that it hands on is its own. -/
abbrev Script.stage (s : Script) (place : Place) : Stage where
  Kept := Unit
  opening request := (s.opening place request).bind fun
    | .error error => .returns (.inl (.error error))
    | .ok request =>
      if s.proceeds then .returns (.inr (request, ()))
      else (act place s.propagates s.after).bind fun served => .returns (.inl served)
  answer effect _ := .perform effect fun reply => .returns (reply, ())
  closing served _ := (Program.note place (.next served)).bind fun _ =>
    match served, s.swallows with
    | .error error, false => .returns (.error error)
    | _, _ => act place s.propagates s.after

/-- A script calls the next stage at most once, and this is how. -/
theorem Script.middleware_stage (s : Script) (place : Place) :
    (s.stage place).middleware = s.middleware place := by
  funext next r
  refine (Program.bind_bind ..).trans (congrArg (Program.bind _) (funext fun opened => ?_))
  cases opened with
  | error error => rfl
  | ok r =>
    simp only
    split
    · have hcarry : (s.stage place).carry () (next r) =
        (next r).bind fun value => .returns (value, ()) := Stage.carry_eq _ _ fun _ => rfl
      exact (congrArg (Program.bind · _) hcarry).trans (Program.bind_bind ..)
    · exact (Program.bind_bind ..).trans (Program.bind_returns _)

/-! ## Folds -/

namespace Pipeline

theorem foldl_add (ms : List Middleware) : ∀ p : Pipeline,
    ms.foldl add p = { p with middleware := p.middleware ++ ms } := by
  induction ms with
  | nil => exact fun p => by rw [List.foldl_nil, List.append_nil]
  | cons m ms ih =>
    intro p
    rw [List.foldl_cons, ih, add, List.append_assoc, List.singleton_append]

theorem chain_eq_foldr (ms : List Middleware) (h : Handler) :
    chain ms h = ms.foldr (fun m next => m next) h := by
  induction ms with
  | nil => rfl
  | cons m ms ih => rw [chain, ih, List.foldr_cons]

end Pipeline

end UpgradeBridge
