/-
Runs of programs told by the conversations that they hold: which effects were
asked for, in which order, and how each was answered.

A run has two sides. `Program.Asks` is the program's: given these answers, it
asks for exactly these effects and goes on as another program. `World.Answers`
is the world's: from a state on, it answers exactly so. `Program.Stops` tells
how it ends: with a value, by breaking off, or by waiting for an answer that
does not come. `asks_run` joins the three: every run is such a conversation.
-/
import UpgradeBridge.Program

namespace UpgradeBridge

variable {σ τ υ α β γ : Type}

/-- The state that an effect leaves, whether it was answered or waits. -/
def Step.state : Step σ α → σ
  | .replied _ s => s
  | .waits s => s

/-- The step with its state changed. -/
def Step.map (f : σ → τ) : Step σ α → Step τ α
  | .replied reply s => .replied reply (f s)
  | .waits s => .waits (f s)

theorem Step.map_id (a : Step σ α) : a.map id = a := by
  cases a <;> rfl

theorem Step.map_map (f : σ → τ) (g : τ → υ) (a : Step σ α) :
    (a.map f).map g = a.map (g ∘ f) := by
  cases a <;> rfl

/-- The outcome with its value changed. -/
def Outcome.map (f : α → β) : Outcome α → Outcome β
  | .returned value => .returned (f value)
  | .panicked => .panicked
  | .pending => .pending

theorem Outcome.map_map (f : α → β) (g : β → γ) (o : Outcome α) :
    (o.map f).map g = o.map (g ∘ f) := by
  cases o <;> rfl

theorem Outcome.map_id (o : Outcome α) : o.map id = o := by
  cases o <;> rfl

theorem Program.bind_bind (q : Program α) (f : α → Program β) (g : β → Program γ) :
    (q.bind f).bind g = q.bind fun value => (f value).bind g := by
  induction q with
  | perform effect next ih => simp only [bind, ih]
  | _ => rfl

theorem Program.bind_returns (q : Program α) : q.bind returns = q := by
  induction q with
  | perform effect next ih => simp only [bind, ih]
  | _ => rfl

/-- Given the answers of a conversation, a program asks for exactly its effects, and another
program is left of it. -/
inductive Program.Asks : Program α → List Exchanged → Program α → Prop
  | nil {rest} : Asks rest [] rest
  | cons {effect reply next asked rest} : Asks (next reply) asked rest →
      Asks (.perform effect next) (⟨effect, reply⟩ :: asked) rest

/-- From a state on, a world answers the effects of a conversation as it says, and comes to
another state. -/
inductive World.Answers (w : World σ) : σ → List Exchanged → σ → Prop
  | nil {s} : Answers w s [] s
  | cons {s t u effect reply asked} : w.answer effect s = .replied reply t → Answers w t asked u →
      Answers w s (⟨effect, reply⟩ :: asked) u

/-- A program gets no further answer: it is at its end, or it waits for the world. -/
inductive Program.Stops (w : World σ) : Program α → σ → Outcome α → σ → Prop
  | returned {value s} : Stops w (.returns value) s (.returned value) s
  | panicked {s} : Stops w .panics s .panicked s
  | stalled {s} : Stops w .stalls s .pending s
  | waits {effect next s t} : w.answer effect s = .waits t →
      Stops w (.perform effect next) s .pending t

theorem Program.Asks.eq_of_nil {q rest : Program α} (h : q.Asks [] rest) : rest = q := by
  cases h
  rfl

theorem Program.Asks.trans {q₁ q₂ q₃ : Program α} {asked more : List Exchanged}
    (h : q₁.Asks asked q₂) (h' : q₂.Asks more q₃) : q₁.Asks (asked ++ more) q₃ := by
  induction h with
  | nil => exact h'
  | cons _ ih => exact .cons (ih h')

theorem World.Answers.trans {w : World σ} {s t u : σ} {asked more : List Exchanged}
    (h : w.Answers s asked t) (h' : w.Answers t more u) : w.Answers s (asked ++ more) u := by
  induction h with
  | nil => exact h'
  | cons ha _ ih => exact .cons ha (ih h')

theorem Program.Asks.split {q rest : Program α} {asked more : List Exchanged}
    (h : q.Asks (asked ++ more) rest) : ∃ mid, q.Asks asked mid ∧ mid.Asks more rest := by
  induction asked generalizing q with
  | nil => exact ⟨q, .nil, h⟩
  | cons x asked ih =>
    cases h with
    | cons h =>
      obtain ⟨mid, hasked, hmore⟩ := ih h
      exact ⟨mid, .cons hasked, hmore⟩

theorem World.Answers.split {w : World σ} {s u : σ} {asked more : List Exchanged}
    (h : w.Answers s (asked ++ more) u) : ∃ t, w.Answers s asked t ∧ w.Answers t more u := by
  induction asked generalizing s with
  | nil => exact ⟨s, .nil, h⟩
  | cons x asked ih =>
    cases h with
    | cons ha h =>
      obtain ⟨t, hasked, hmore⟩ := ih h
      exact ⟨t, .cons ha hasked, hmore⟩

/-! ## Runs -/

/-- The run with a conversation before it. -/
def Run.after (asked : List Exchanged) (r : Run σ α) : Run σ α :=
  { r with trace := asked ++ r.trace }

@[simp] theorem Run.after_outcome (asked : List Exchanged) (r : Run σ α) :
    (r.after asked).outcome = r.outcome := rfl
@[simp] theorem Run.after_state (asked : List Exchanged) (r : Run σ α) :
    (r.after asked).state = r.state := rfl
@[simp] theorem Run.after_trace (asked : List Exchanged) (r : Run σ α) :
    (r.after asked).trace = asked ++ r.trace := rfl

/-- The run with its value changed. -/
def Run.map (f : α → β) (r : Run σ α) : Run σ β :=
  { outcome := r.outcome.map f, state := r.state, trace := r.trace }

@[simp] theorem Run.map_state (f : α → β) (r : Run σ α) : (r.map f).state = r.state := rfl
@[simp] theorem Run.map_dialled (f : α → β) (r : Run σ α) : (r.map f).dialled = r.dialled := rfl

theorem Run.after_after (asked more : List Exchanged) (r : Run σ α) :
    (r.after more).after asked = r.after (asked ++ more) := by
  simp [Run.after]

namespace Program

theorem run_perform_waits {w : World σ} {effect : Effect} {s t : σ}
    (next : effect.Reply → Program α) (h : w.answer effect s = .waits t) :
    (perform effect next).run w s = ⟨.pending, t, []⟩ := by
  simp only [run, h]

theorem run_perform_replied {w : World σ} {effect : Effect} {reply : effect.Reply} {s t : σ}
    (next : effect.Reply → Program α) (h : w.answer effect s = .replied reply t) :
    (perform effect next).run w s = ((next reply).run w t).after [⟨effect, reply⟩] := by
  simp only [run, h]
  rfl

/-- A run that returns got the answer to its first effect. -/
theorem run_perform_returned {w : World σ} {effect : Effect} {next : effect.Reply → Program α} {s : σ}
    {value : α} (h : ((perform effect next).run w s).outcome = .returned value) :
    ∃ reply t, w.answer effect s = .replied reply t ∧
      ((next reply).run w t).outcome = .returned value ∧
      (perform effect next).run w s = ((next reply).run w t).after [⟨effect, reply⟩] := by
  cases ha : w.answer effect s with
  | waits t =>
    rw [run_perform_waits next ha] at h
    cases h
  | replied reply t =>
    have hrun := run_perform_replied next ha
    rw [hrun] at h
    exact ⟨reply, t, rfl, h, hrun⟩

/-- **Every run is a conversation**: what the program asked for is what the world was asked, the
answers that the program got are those of the world, and nothing was asked beyond it. -/
theorem asks_run (w : World σ) (q : Program α) : ∀ s, ∃ rest t,
    q.Asks (q.run w s).trace rest ∧ w.Answers s (q.run w s).trace t ∧
      rest.Stops w t (q.run w s).outcome (q.run w s).state := by
  induction q with
  | returns value => exact fun s => ⟨_, s, .nil, .nil, .returned⟩
  | panics => exact fun s => ⟨_, s, .nil, .nil, .panicked⟩
  | stalls => exact fun s => ⟨_, s, .nil, .nil, .stalled⟩
  | perform effect next ih =>
    intro s
    cases h : w.answer effect s with
    | waits t =>
      rw [run_perform_waits next h]
      exact ⟨_, s, .nil, .nil, .waits h⟩
    | replied reply t =>
      rw [run_perform_replied next h]
      obtain ⟨rest, u, hasks, hanswers, hstops⟩ := ih reply t
      exact ⟨rest, u, .cons hasks, .cons h hanswers, hstops⟩

/-- Whatever the answers are, a program asks for such effects only. -/
def Only (allowed : Effect → Prop) : Program α → Prop
  | perform effect next => allowed effect ∧ ∀ reply, (next reply).Only allowed
  | _ => True

theorem only_of_forall {allowed : Effect → Prop} (h : ∀ effect, allowed effect) (q : Program α) :
    q.Only allowed := by
  induction q with
  | perform effect next ih => exact ⟨h effect, ih⟩
  | _ => trivial

theorem Only.mono {allowed allowed' : Effect → Prop} (hle : ∀ effect, allowed effect → allowed' effect)
    {q : Program α} (h : q.Only allowed) : q.Only allowed' := by
  induction q with
  | perform effect next ih => exact ⟨hle effect h.1, fun reply => ih reply (h.2 reply)⟩
  | _ => trivial

theorem Only.mem_trace {allowed : Effect → Prop} (w : World σ) {q : Program α} (h : q.Only allowed) :
    ∀ s, ∀ x ∈ (q.run w s).trace, allowed x.1 := by
  induction q with
  | perform effect next ih =>
    intro s x hx
    cases ha : w.answer effect s with
    | waits t =>
      rw [run_perform_waits next ha] at hx
      cases hx
    | replied reply t =>
      rw [run_perform_replied next ha] at hx
      rcases List.mem_cons.mp hx with rfl | hx
      · exact h.1
      · exact ih reply (h.2 reply) t x hx
  | _ => exact fun _ _ hx => by cases hx

/-- What every effect that a program may ask for preserves, its run preserves. -/
theorem Only.run {allowed : Effect → Prop} {q : Program α} (h : q.Only allowed) {w : World σ}
    (holds : σ → Prop) (hstep : ∀ effect s, allowed effect → holds s → holds (w.answer effect s).state) :
    ∀ {s}, holds s → holds (q.run w s).state := by
  induction q with
  | perform effect next ih =>
    intro s hs
    have heffect := hstep effect s h.1 hs
    cases ha : w.answer effect s with
    | waits t =>
      rw [ha] at heffect
      rw [run_perform_waits next ha]
      exact heffect
    | replied reply t =>
      rw [ha] at heffect
      rw [run_perform_replied next ha]
      exact ih reply (h.2 reply) heffect
  | _ => exact id

theorem Only.bind {allowed : Effect → Prop} {q : Program α} {f : α → Program β}
    (h : q.Only allowed) (hf : ∀ value, (f value).Only allowed) : (q.bind f).Only allowed := by
  induction q with
  | returns value => exact hf value
  | perform effect next ih => exact ⟨h.1, fun reply => ih reply (h.2 reply)⟩
  | _ => trivial

/-- Whatever the answers are, a program returns such values only. -/
def Yields (valid : α → Prop) : Program α → Prop
  | returns value => valid value
  | perform _ next => ∀ reply, (next reply).Yields valid
  | _ => True

theorem Yields.bind {valid : α → Prop} {valid' : β → Prop} {q : Program α} {f : α → Program β}
    (h : q.Yields valid) (hf : ∀ value, valid value → (f value).Yields valid') :
    (q.bind f).Yields valid' := by
  induction q with
  | returns value => exact hf value h
  | perform effect next ih => exact fun reply => ih reply (h reply)
  | _ => trivial

theorem Yields.run {valid : α → Prop} {q : Program α} (h : q.Yields valid) (w : World σ) :
    ∀ s value, (q.run w s).outcome = .returned value → valid value := by
  induction q with
  | returns value =>
    intro s value' ho
    cases ho
    exact h
  | perform effect next ih =>
    intro s value ho
    cases ha : w.answer effect s with
    | waits t =>
      rw [run_perform_waits next ha] at ho
      cases ho
    | replied reply t =>
      rw [run_perform_replied next ha] at ho
      exact ih reply (h reply) t value ho
  | _ =>
    intro s value ho
    cases ho

/-- The program asks for an effect in the course of its run, whether or not it is answered. -/
def Reaches (w : World σ) (q : Program α) (s : σ) (effect : Effect) : Prop :=
  ∃ asked t next, q.Asks asked (perform effect next) ∧ w.Answers s asked t

theorem reaches_first {w : World σ} {s : σ} {effect : Effect} (next : effect.Reply → Program α) :
    (perform effect next).Reaches w s effect :=
  ⟨[], s, next, .nil, .nil⟩

theorem Reaches.later {w : World σ} {s t : σ} {first effect : Effect} {reply : first.Reply}
    {next : first.Reply → Program α} (h : (next reply).Reaches w t effect)
    (ha : w.answer first s = .replied reply t) : (perform first next).Reaches w s effect := by
  obtain ⟨asked, u, rest, hasks, hanswers⟩ := h
  exact ⟨_, u, rest, .cons hasks, .cons ha hanswers⟩

theorem Reaches.cases {w : World σ} {s : σ} {first effect : Effect}
    {next : first.Reply → Program α} (h : (perform first next).Reaches w s effect) :
    effect = first ∨
      ∃ reply t, w.answer first s = .replied reply t ∧ (next reply).Reaches w t effect := by
  obtain ⟨asked, u, rest, hasks, hanswers⟩ := h
  cases hasks with
  | nil => exact .inl rfl
  | cons hasks =>
    cases hanswers with
    | cons ha hanswers => exact .inr ⟨_, _, ha, _, u, rest, hasks, hanswers⟩

theorem not_reaches_returns {w : World σ} {s : σ} {effect : Effect} (value : α) :
    ¬ (returns value).Reaches w s effect := by
  rintro ⟨asked, u, rest, hasks, -⟩
  cases hasks

theorem Only.reaches {allowed : Effect → Prop} {w : World σ} {q : Program α} (h : q.Only allowed) :
    ∀ {s effect}, q.Reaches w s effect → allowed effect := by
  induction q with
  | perform first next ih =>
    intro s effect hreaches
    rcases hreaches.cases with rfl | ⟨reply, t, -, hrest⟩
    · exact h.1
    · exact ih reply (h.2 reply) hrest
  | _ =>
    rintro s effect ⟨asked, u, rest, hasks, -⟩
    cases hasks

/-- A run with its value changed in the end. -/
theorem run_bind_returns (w : World σ) (f : α → β) (q : Program α) :
    ∀ s, (q.bind fun value => .returns (f value)).run w s =
      (q.run w s).map f := by
  induction q with
  | perform effect next ih =>
    intro s
    cases ha : w.answer effect s with
    | waits t =>
      rw [bind, run_perform_waits _ ha, run_perform_waits _ ha]
      rfl
    | replied reply t =>
      rw [bind, run_perform_replied _ ha, run_perform_replied _ ha, ih]
      rfl
  | _ => exact fun _ => rfl

end Program

end UpgradeBridge
