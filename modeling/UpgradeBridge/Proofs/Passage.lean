/-
The passage of a request through a pipeline of stages that call the next one at
most once.

`tracked` is a pipeline with marks at the borders of its stages: where a stage is
entered, where the channel that it was given answers it, and where it returns. The
marks are no part of what is done (`erase_tracked`). `Passage` tells from stage to
stage what becomes of a request, and `Tracked.Ends.passage` that every run is one.
-/
import UpgradeBridge.Proofs.Stages

namespace UpgradeBridge

variable {σ α β : Type}

/-! ## Marks at the borders of stages -/

/-- What happens at the border of a stage. -/
inductive Moment
  /-- It is called with a request. -/
  | entered (request : Request)
  /-- The channel that it was given has answered an effect. -/
  | answered (x : Exchanged)
  /-- It returns. -/
  | left (served : Verdict)

/-- A moment at the stage of a place, counted from the first one on; the handler comes after the last
stage. -/
structure Mark where
  place : Nat
  moment : Moment

/-- A program with marks in it. -/
inductive Tracked (α : Type) : Type
  | returns (value : α)
  | panics
  | stalls
  | perform (effect : Effect) (next : effect.Reply → Tracked α)
  | marks (mark : Mark) (rest : Tracked α)

namespace Tracked

/-- The program without its marks. -/
def erase : Tracked α → Program α
  | returns value => .returns value
  | panics => .panics
  | stalls => .stalls
  | perform effect next => .perform effect fun reply => (next reply).erase
  | marks _ rest => rest.erase

/-- The marks that a run of the program comes by, in order. -/
def log (w : World σ) : Tracked α → σ → List Mark
  | perform effect next, s =>
    match w.answer effect s with
    | .waits _ => []
    | .replied reply s => (next reply).log w s
  | marks mark rest, s => mark :: rest.log w s
  | _, _ => []

/-- A program with no marks in it. -/
def plain : Program α → Tracked α
  | .returns value => returns value
  | .panics => panics
  | .stalls => stalls
  | .perform effect next => perform effect fun reply => plain (next reply)

/-- Goes on with what a program returns. -/
def bind : Tracked α → (α → Tracked β) → Tracked β
  | returns value, f => f value
  | panics, _ => panics
  | stalls, _ => stalls
  | perform effect next, f => perform effect fun reply => (next reply).bind f
  | marks mark rest, f => marks mark (rest.bind f)

/-- Marks every effect that is answered. -/
def watched (place : Nat) : Tracked α → Tracked α
  | perform effect next => perform effect fun reply =>
    marks ⟨place, .answered ⟨effect, reply⟩⟩ ((next reply).watched place)
  | marks mark rest => marks mark (rest.watched place)
  | q => q

/-- Marks the beginning and the end, and what is answered between them. -/
def stay (place : Nat) (request : Request) (q : Tracked Verdict) : Tracked Verdict :=
  marks ⟨place, .entered request⟩ <| (q.watched place).bind fun served =>
    marks ⟨place, .left served⟩ (returns served)

end Tracked

/-- Runs a program with marks on the channel that a stage hands on. -/
def Stage.carryTracked (m : Stage) : m.Kept → Tracked α → Tracked (α × m.Kept)
  | kept, .returns value => .returns (value, kept)
  | _, .panics => .panics
  | _, .stalls => .stalls
  | kept, .perform effect next => (Tracked.plain (m.answer effect kept)).bind fun answered =>
    m.carryTracked answered.2 (next answered.1)
  | kept, .marks mark rest => .marks mark (m.carryTracked kept rest)

/-- What a stage makes of a next one with marks. -/
def Stage.tracked (m : Stage) (next : Request → Tracked Verdict) (request : Request) :
    Tracked Verdict :=
  (Tracked.plain (m.opening request)).bind fun
    | .inl served => .returns served
    | .inr (request, kept) => (m.carryTracked kept (next request)).bind fun ended =>
      .plain (m.closing ended.1 ended.2)

/-- A pipeline with marks, from the stage of a place on. -/
def tracked (h : Handler) : Nat → List Stage → Request → Tracked Verdict
  | place, [], request => .stay place request (.plain (h request))
  | place, m :: stages, request =>
    .stay place request (m.tracked (tracked h (place + 1) stages) request)

namespace Tracked

theorem erase_plain (q : Program α) : (plain q).erase = q := by
  induction q with
  | perform effect next ih => exact congrArg (Program.perform effect) (funext ih)
  | _ => rfl

theorem erase_bind (q : Tracked α) (f : α → Tracked β) :
    (q.bind f).erase = q.erase.bind fun value => (f value).erase := by
  induction q with
  | perform effect next ih => exact congrArg (Program.perform effect) (funext ih)
  | marks mark rest ih => exact ih
  | _ => rfl

theorem erase_watched (place : Nat) (q : Tracked α) : (q.watched place).erase = q.erase := by
  induction q with
  | perform effect next ih => exact congrArg (Program.perform effect) (funext ih)
  | marks mark rest ih => exact ih
  | _ => rfl

theorem erase_stay (place : Nat) (request : Request) (q : Tracked Verdict) :
    (stay place request q).erase = q.erase := by
  rw [stay, erase, erase_bind, erase_watched]
  exact Program.bind_returns _

end Tracked

theorem Stage.erase_carryTracked (m : Stage) (q : Tracked α) : ∀ kept,
    (m.carryTracked kept q).erase = m.carry kept q.erase := by
  induction q with
  | perform effect next ih =>
    intro kept
    simp only [carryTracked, Tracked.erase, Stage.carry, Tracked.erase_bind, Tracked.erase_plain, ih]
  | marks mark rest ih => exact ih
  | _ => exact fun _ => rfl

/-- Without its marks it is the pipeline. -/
theorem erase_tracked (h : Handler) (stages : List Stage) : ∀ place request,
    (tracked h place stages request).erase =
      Pipeline.chain (stages.map Stage.middleware) h request := by
  induction stages with
  | nil =>
    intro place request
    rw [tracked, Tracked.erase_stay, Tracked.erase_plain]
    rfl
  | cons m stages ih =>
    intro place request
    rw [tracked, Tracked.erase_stay, Stage.tracked, Tracked.erase_bind, Tracked.erase_plain,
      List.map_cons, Pipeline.chain, Stage.middleware]
    refine congrArg (Program.bind _) (funext fun opened => ?_)
    rcases opened with served | ⟨request, kept⟩
    · rfl
    · simp only [Tracked.erase_bind, Tracked.erase_plain, Stage.erase_carryTracked, ih]

/-! ## The passage of a request -/

/-- What a stage was called with, what its channel answered it, and how that ended. -/
structure Stay where
  request : Request
  conversation : List Exchanged
  outcome : Outcome Verdict

/-- The moments of a stay. -/
def Stay.moments (v : Stay) : List Moment :=
  .entered v.request :: v.conversation.map .answered ++
    match v.outcome with
    | .returned served => [.left served]
    | _ => []

theorem Stay.left_mem_moments {v : Stay} {served : Verdict} :
    .left served ∈ v.moments ↔ v.outcome = .returned served := by
  cases ho : v.outcome <;> simp [moments, ho, eq_comm]

/-- What a stage makes of a conversation of the next stage, which ended so, while it keeps something:
a conversation of its own, and how the next stage ends on it. -/
inductive Stage.Carries (m : Stage) :
    m.Kept → List Exchanged → Outcome α → List Exchanged → Outcome (α × m.Kept) → Prop
  | returned {kept value} : Carries m kept [] (.returned value) [] (.returned (value, kept))
  /-- The next stage breaks off, or waits of itself. -/
  | halted {kept o o'} : o.Halts o' → Carries m kept [] o [] o'
  /-- The next stage gets no answer, as the stage breaks off or waits over it. -/
  | unanswered {kept effect asked o o'} : (m.answer effect kept).Ends asked o → o.Halts o' →
      Carries m kept [] .pending asked o'
  | answered {kept kept' effect reply asked inner o outer o'} :
      (m.answer effect kept).Ends asked (.returned (reply, kept')) →
      Carries m kept' inner o outer o' → Carries m kept (⟨effect, reply⟩ :: inner) o (asked ++ outer) o'

/-- What a stage makes of a stay, and the stay of the next stage that it makes for it, if any. -/
inductive Stage.Makes (m : Stage) : Stay → Option Stay → Prop
  /-- It is over before the next stage is called. -/
  | returned {request asked served} : (m.opening request).Ends asked (.returned (.inl served)) →
      Makes m ⟨request, asked, .returned served⟩ none
  | halted {request asked o o'} : (m.opening request).Ends asked o → o.Halts o' →
      Makes m ⟨request, asked, o'⟩ none
  /-- It hands a request on, and makes what it returns of what the next stage returned. -/
  | closed {request before request' kept inner served outer kept' after o} :
      (m.opening request).Ends before (.returned (.inr (request', kept))) →
      m.Carries kept inner (.returned served) outer (.returned (served, kept')) →
      (m.closing served kept').Ends after o →
      Makes m ⟨request, before ++ (outer ++ after), o⟩ (some ⟨request', inner, .returned served⟩)
  /-- It hands a request on, and the next stage does not return. -/
  | broken {request before request' kept inner o outer o' o''} :
      (m.opening request).Ends before (.returned (.inr (request', kept))) →
      m.Carries kept inner o outer o' → o'.Halts o'' →
      Makes m ⟨request, before ++ outer, o''⟩ (some ⟨request', inner, o⟩)

/-- The stays of a pipeline, one after another from the first stage on: each is what the stage before
made for it, until a stage hands nothing on or the handler is reached. -/
inductive Passage (h : Handler) : List Stage → List Stay → Prop
  | handled {v} : (h v.request).Ends v.conversation v.outcome → Passage h [] [v]
  | stops {m stages v} : m.Makes v none → Passage h (m :: stages) [v]
  | goes {m stages v v' stays} : m.Makes v (some v') → Passage h stages (v' :: stays) →
      Passage h (m :: stages) (v :: v' :: stays)

/-- The moments at a place. -/
def momentsAt (place : Nat) (log : List Mark) : List Moment :=
  log.filterMap fun mark => if mark.place = place then some mark.moment else none

/-- The places that are entered, in order. -/
def entries (log : List Mark) : List Nat :=
  log.filterMap fun mark =>
    match mark.moment with
    | .entered _ => some mark.place
    | _ => none

theorem momentsAt_cons (place : Nat) (mark : Mark) (log : List Mark) :
    momentsAt place (mark :: log) =
      if mark.place = place then mark.moment :: momentsAt place log else momentsAt place log := by
  by_cases h : mark.place = place <;> simp [momentsAt, h]

theorem momentsAt_append (place : Nat) (log more : List Mark) :
    momentsAt place (log ++ more) = momentsAt place log ++ momentsAt place more :=
  List.filterMap_append

theorem entries_append (log more : List Mark) : entries (log ++ more) = entries log ++ entries more :=
  List.filterMap_append

/-- A program with marks may hold a conversation, come by some marks and then end so. -/
inductive Tracked.Ends : Tracked α → List Exchanged → List Mark → Outcome α → Prop
  | returned {value} : Ends (.returns value) [] [] (.returned value)
  | panicked : Ends .panics [] [] .panicked
  | stalled : Ends .stalls [] [] .pending
  | unanswered {effect next} : Ends (.perform effect next) [] [] .pending
  | answered {effect reply next asked log o} : Ends (next reply) asked log o →
      Ends (.perform effect next) (⟨effect, reply⟩ :: asked) log o
  | marked {mark rest asked log o} : Ends rest asked log o →
      Ends (.marks mark rest) asked (mark :: log) o

namespace Tracked

theorem ends_run (w : World σ) (q : Tracked α) : ∀ s,
    q.Ends (q.erase.run w s).trace (q.log w s) (q.erase.run w s).outcome := by
  induction q with
  | returns value => exact fun _ => .returned
  | panics => exact fun _ => .panicked
  | stalls => exact fun _ => .stalled
  | marks mark rest ih => exact fun s => .marked (ih s)
  | perform effect next ih =>
    intro s
    cases ha : w.answer effect s with
    | waits t =>
      simp only [erase, log, ha, Program.run_perform_waits _ ha]
      exact .unanswered
    | replied reply t =>
      simp only [erase, log, ha, Program.run_perform_replied _ ha]
      exact .answered (ih reply t)

theorem Ends.of_plain {q : Program α} : ∀ {asked log o}, (plain q).Ends asked log o →
    log = [] ∧ q.Ends asked o := by
  induction q with
  | perform effect next ih =>
    intro asked log o h
    cases h with
    | unanswered => exact ⟨rfl, .unanswered⟩
    | answered h =>
      obtain ⟨hlog, hends⟩ := ih _ h
      exact ⟨hlog, .answered hends⟩
  | returns value =>
    intro asked log o h
    cases h
    exact ⟨rfl, .returned⟩
  | panics =>
    intro asked log o h
    cases h
    exact ⟨rfl, .panicked⟩
  | stalls =>
    intro asked log o h
    cases h
    exact ⟨rfl, .stalled⟩

theorem Ends.of_bind {q : Tracked α} {f : α → Tracked β} : ∀ {asked log o},
    (q.bind f).Ends asked log o →
      (∃ value before after logged more, q.Ends before logged (.returned value) ∧
        (f value).Ends after more o ∧ asked = before ++ after ∧ log = logged ++ more) ∨
      ∃ o', q.Ends asked log o' ∧ o'.Halts o := by
  induction q with
  | returns value => exact fun h => .inl ⟨value, [], _, [], _, .returned, h, rfl, rfl⟩
  | panics =>
    intro asked log o h
    cases h
    exact .inr ⟨_, .panicked, .panicked⟩
  | stalls =>
    intro asked log o h
    cases h
    exact .inr ⟨_, .stalled, .pending⟩
  | perform effect next ih =>
    intro asked log o h
    cases h with
    | unanswered => exact .inr ⟨_, .unanswered, .pending⟩
    | answered h =>
      rcases ih _ h with ⟨value, before, after, logged, more, hq, hf, rfl, rfl⟩ | ⟨o', hq, ho⟩
      · exact .inl ⟨value, _, after, logged, more, .answered hq, hf, rfl, rfl⟩
      · exact .inr ⟨o', .answered hq, ho⟩
  | marks mark rest ih =>
    intro asked log o h
    cases h with
    | marked h =>
      rcases ih h with ⟨value, before, after, logged, more, hq, hf, rfl, rfl⟩ | ⟨o', hq, ho⟩
      · exact .inl ⟨value, before, after, _, more, .marked hq, hf, rfl, rfl⟩
      · exact .inr ⟨o', .marked hq, ho⟩

/-- The marks of other places stay, and those of this one are what was answered, if it had none. -/
theorem Ends.of_watched {place : Nat} {q : Tracked α} : ∀ {asked log o},
    (q.watched place).Ends asked log o → ∃ inner, q.Ends asked inner o ∧ entries log = entries inner ∧
      (∀ k, k ≠ place → momentsAt k log = momentsAt k inner) ∧
      (momentsAt place inner = [] → momentsAt place log = asked.map .answered) := by
  induction q with
  | returns value =>
    intro asked log o h
    cases h
    exact ⟨[], .returned, rfl, fun _ _ => rfl, fun _ => rfl⟩
  | panics =>
    intro asked log o h
    cases h
    exact ⟨[], .panicked, rfl, fun _ _ => rfl, fun _ => rfl⟩
  | stalls =>
    intro asked log o h
    cases h
    exact ⟨[], .stalled, rfl, fun _ _ => rfl, fun _ => rfl⟩
  | perform effect next ih =>
    intro asked log o h
    cases h with
    | unanswered => exact ⟨[], .unanswered, rfl, fun _ _ => rfl, fun _ => rfl⟩
    | answered h =>
      cases h with
      | marked h =>
        obtain ⟨inner, hq, hentries, hother, hthis⟩ := ih _ h
        refine ⟨inner, .answered hq, hentries, fun k hk => ?_, fun hnone => ?_⟩
        · rw [momentsAt_cons, if_neg hk.symm, hother k hk]
        · rw [momentsAt_cons, if_pos rfl, hthis hnone]
          rfl
  | marks mark rest ih =>
    intro asked log o h
    cases h with
    | @marked _ _ _ log _ h =>
      obtain ⟨inner, hq, hentries, hother, hthis⟩ := ih h
      refine ⟨mark :: inner, .marked hq, ?_, fun k hk => ?_, fun hnone => ?_⟩
      · rw [← List.singleton_append, entries_append, hentries, ← entries_append,
          List.singleton_append]
      · rw [momentsAt_cons, momentsAt_cons, hother k hk]
      · rw [momentsAt_cons] at hnone ⊢
        split at hnone
        · cases hnone
        · next hplace => rw [if_neg hplace, hthis hnone]

/-- A stay enters its place first; then what is below it is entered. -/
theorem Ends.of_stay {place : Nat} {request : Request} {q : Tracked Verdict} {asked log o}
    (h : (stay place request q).Ends asked log o) : ∃ inner, q.Ends asked inner o ∧
      entries log = place :: entries inner ∧ (∀ k, k ≠ place → momentsAt k log = momentsAt k inner) ∧
      (momentsAt place inner = [] → momentsAt place log = Stay.moments ⟨request, asked, o⟩) := by
  cases h with
  | marked h =>
    rcases h.of_bind with ⟨served, before, after, logged, more, hq, hf, rfl, rfl⟩ | ⟨o', hq, ho⟩
    · cases hf with
      | marked hf =>
        cases hf
        rw [List.append_nil]
        obtain ⟨inner, hq, hentries, hother, hthis⟩ := hq.of_watched
        refine ⟨inner, hq, ?_, fun k hk => ?_, fun hnone => ?_⟩
        · rw [← hentries]
          simp [entries]
        · rw [← hother k hk]
          simp [momentsAt, hk.symm]
        · rw [momentsAt_cons, if_pos rfl, momentsAt_append, hthis hnone, momentsAt_cons, if_pos rfl]
          rfl
    · obtain ⟨inner, hq, hentries, hother, hthis⟩ := hq.of_watched
      obtain rfl := ho.eq
      refine ⟨inner, hq, ?_, fun k hk => ?_, fun hnone => ?_⟩
      · rw [← hentries]
        rfl
      · rw [momentsAt_cons, if_neg hk.symm, hother k hk]
      · rw [momentsAt_cons, if_pos rfl, hthis hnone]
        cases ho <;> simp [Stay.moments]

end Tracked

namespace Stage

theorem Carries.returned_of {m : Stage} {kept : m.Kept} {inner outer : List Exchanged}
    {o : Outcome α} {o' : Outcome (α × m.Kept)} (h : m.Carries kept inner o outer o') {value : α} {kept' : m.Kept}
    (ho : o' = .returned (value, kept')) : o = .returned value := by
  induction h with
  | returned =>
    cases ho
    rfl
  | halted h | unanswered _ h =>
    subst ho
    cases h
  | answered _ _ ih => exact ih ho

/-- What a program on the channel of a stage comes by and how it ends, the stage has made so. -/
theorem carries_of_ends (m : Stage) {q : Tracked α} : ∀ {kept asked log o},
    (m.carryTracked kept q).Ends asked log o →
      ∃ inner o', q.Ends inner log o' ∧ m.Carries kept inner o' asked o := by
  induction q with
  | returns value =>
    intro kept asked log o h
    cases h
    exact ⟨[], _, .returned, .returned⟩
  | panics =>
    intro kept asked log o h
    cases h
    exact ⟨[], _, .panicked, .halted .panicked⟩
  | stalls =>
    intro kept asked log o h
    cases h
    exact ⟨[], _, .stalled, .halted .pending⟩
  | perform effect next ih =>
    intro kept asked log o h
    rcases h.of_bind with ⟨⟨reply, kept'⟩, before, after, logged, more, hq, hf, rfl, rfl⟩ |
      ⟨o', hq, ho⟩
    · obtain ⟨rfl, hanswer⟩ := hq.of_plain
      obtain ⟨inner, o', hinner, hcarries⟩ := ih reply hf
      exact ⟨_, o', .answered hinner, .answered hanswer hcarries⟩
    · obtain ⟨rfl, hanswer⟩ := hq.of_plain
      exact ⟨[], _, .unanswered, .unanswered hanswer ho⟩
  | marks mark rest ih =>
    intro kept asked log o h
    cases h with
    | marked h =>
      obtain ⟨inner, o', hinner, hcarries⟩ := ih h
      exact ⟨inner, o', .marked hinner, hcarries⟩

/-- A stage hands nothing on and comes by no marks, or the marks are those of the next stage. -/
theorem makes_of_ends (m : Stage) {next : Request → Tracked Verdict} {request : Request} {asked log o}
    (h : (m.tracked next request).Ends asked log o) :
    (log = [] ∧ m.Makes ⟨request, asked, o⟩ none) ∨ ∃ request' inner o',
      (next request').Ends inner log o' ∧ m.Makes ⟨request, asked, o⟩ (some ⟨request', inner, o'⟩) := by
  rcases h.of_bind with ⟨opened, before, after, logged, more, hq, hf, rfl, rfl⟩ | ⟨o', hq, ho⟩
  · obtain ⟨rfl, hopening⟩ := hq.of_plain
    rcases opened with served | ⟨request', kept⟩
    · cases hf
      rw [List.append_nil before]
      exact .inl ⟨rfl, .returned hopening⟩
    · refine .inr ?_
      rcases hf.of_bind with ⟨⟨served, kept'⟩, outer, after, logged, more, hnext, hclosing, rfl, rfl⟩ |
        ⟨o', hnext, ho⟩
      · obtain ⟨rfl, hclosed⟩ := hclosing.of_plain
        obtain ⟨inner, o', hinner, hcarries⟩ := m.carries_of_ends hnext
        obtain rfl := hcarries.returned_of rfl
        rw [List.append_nil logged]
        exact ⟨request', inner, _, hinner, .closed hopening hcarries hclosed⟩
      · obtain ⟨inner, o'', hinner, hcarries⟩ := m.carries_of_ends hnext
        exact ⟨request', inner, o'', hinner, .broken hopening hcarries ho⟩
  · obtain ⟨rfl, hopening⟩ := hq.of_plain
    exact .inl ⟨rfl, .halted hopening ho⟩

end Stage

/-- **A run of a pipeline is a passage**, and the marks that it comes by are those of its stays: the
places are entered one after another from the first one on, each once. -/
theorem Tracked.Ends.passage {h : Handler} {stages : List Stage} : ∀ {place request asked log o},
    (tracked h place stages request).Ends asked log o → ∃ later,
      Passage h stages (⟨request, asked, o⟩ :: later) ∧ later.length ≤ stages.length ∧
      entries log = List.range' place (later.length + 1) ∧ (∀ k < place, momentsAt k log = []) ∧
      ∀ k, momentsAt (place + k) log =
        ((Stay.mk request asked o :: later)[k]?).elim [] Stay.moments := by
  induction stages with
  | nil =>
    intro place request asked log o hends
    obtain ⟨inner, hq, hentries, hother, hthis⟩ := hends.of_stay
    obtain ⟨rfl, hhandler⟩ := hq.of_plain
    refine ⟨[], .handled hhandler, Nat.zero_le _, hentries, fun k hk => hother k (by omega),
      fun k => ?_⟩
    cases k with
    | zero => exact hthis rfl
    | succ k => exact hother _ (by omega)
  | cons m stages ih =>
    intro place request asked log o hends
    obtain ⟨inner, hq, hentries, hother, hthis⟩ := hends.of_stay
    rcases m.makes_of_ends hq with ⟨rfl, hmakes⟩ | ⟨request', conversation, o', hnext, hmakes⟩
    · refine ⟨[], .stops hmakes, Nat.zero_le _, hentries, fun k hk => hother k (by omega),
        fun k => ?_⟩
      cases k with
      | zero => exact hthis rfl
      | succ k => exact hother _ (by omega)
    · obtain ⟨later, hpassage, hlength, hlater, hbefore, hafter⟩ := ih hnext
      refine ⟨_ :: later, .goes hmakes hpassage, Nat.succ_le_succ hlength, ?_, fun k hk => ?_,
        fun k => ?_⟩
      · rw [hentries, hlater, List.length_cons, ← List.range'_succ]
      · rw [hother k (by omega), hbefore k (by omega)]
      · cases k with
        | zero => exact hthis (hbefore place (by omega))
        | succ k =>
          rw [hother _ (by omega), show place + (k + 1) = place + 1 + k by omega, hafter k]
          rfl

/-! ## Errors -/

/-- What a stage that hands an error on returns, if it returns, is that error of the next stage. -/
theorem Stage.Makes.hands_on {m : Stage} {v v' : Stay} (h : m.Makes v (some v'))
    {error : HandlerError} (hm : m.HandsOn error)
    (herror : ∀ served, v'.outcome = .returned served → served = .error error) :
    ∀ served, v.outcome = .returned served → served = .error error := by
  intro served hserved
  cases h with
  | closed _ _ hclosing =>
    obtain rfl := herror _ rfl
    exact (hm _).ends hclosing hserved
  | broken _ _ hhalts =>
    subst hserved
    cases hhalts

/-- An error comes out of every stage that it is handed on through, if anything does. -/
theorem Passage.hands_on {h : Handler} {stages : List Stage} {stays : List Stay}
    (hpassage : Passage h stages stays) {error : HandlerError} : ∀ {j k : Nat} {v v' : Stay},
    stays[k]? = some v → v.outcome = .returned (.error error) → j ≤ k → stays[j]? = some v' →
    (∀ m ∈ (stages.take k).drop j, m.HandsOn error) →
    ∀ served, v'.outcome = .returned served → served = .error error := by
  induction hpassage with
  | handled _ | stops _ =>
    intro j k v v' hv herror hj hv' _ served hserved
    obtain ⟨hk, rfl⟩ := List.getElem?_eq_some_iff.mp hv
    obtain ⟨hj, rfl⟩ := List.getElem?_eq_some_iff.mp hv'
    simp only [List.getElem_singleton] at herror hserved
    exact Outcome.returned.inj (hserved.symm.trans herror)
  | goes hmakes _ ih =>
    intro j k v v' hv herror hj hv' hstages
    cases j with
    | succ j =>
      cases k with
      | zero => omega
      | succ k => exact ih hv herror (by omega) hv' (by simpa using hstages)
    | zero =>
      obtain rfl := Option.some.inj hv'
      cases k with
      | zero =>
        obtain rfl := Option.some.inj hv
        exact fun served hserved => Outcome.returned.inj (hserved.symm.trans herror)
      | succ k =>
        rw [List.take_succ_cons, List.drop_zero, List.forall_mem_cons] at hstages
        exact hmakes.hands_on hstages.1 (ih hv herror (Nat.zero_le k) rfl (by simpa using hstages.2))

namespace Pipeline

/-- **A pipeline is the right fold of its middleware in the order in which they were added**, and
where it is split, what comes after the split is the handler of what comes before. A request makes
its way through stages that call the next one at most once as a passage: they are entered one after
another from the first on, each once, with the request and the channel that the stage before hands on,
until one of them hands nothing on or the handler is reached; none after that is entered. What a stage
returns, the stage before works on; so an error comes out of every stage that it is handed on through,
if anything does. -/
theorem passes_in_order (h : Handler) :
    (∀ ms : List Middleware,
      (ms.foldl add { handler := h }).serve = ms.foldr (fun m next => m next) h ∧
      ∀ k, serve ⟨ms.take k, serve ⟨ms.drop k, h⟩⟩ = (ms.foldl add { handler := h }).serve) ∧
    ∀ (stages : List Stage) (r : Request) {σ : Type} (w : World σ) (s : σ),
      let serves := ((stages.map Stage.middleware).foldl add { handler := h }).serve r
      let run := serves.run w s
      let log := (tracked h 0 stages r).log w s
      (tracked h 0 stages r).erase = serves ∧
      ∃ later, let stays := ⟨r, run.trace, run.outcome⟩ :: later
        Passage h stages stays ∧
        stays.length ≤ stages.length + 1 ∧ entries log = List.range stays.length ∧
        (∀ place, momentsAt place log = stays[place]?.elim [] Stay.moments) ∧
        ∀ (error : HandlerError) (j k : Nat) (v v' : Stay), stays[k]? = some v →
          v.outcome = .returned (.error error) → j ≤ k → stays[j]? = some v' →
          (∀ m ∈ (stages.take k).drop j, m.HandsOn error) →
          ∀ served, v'.outcome = .returned served → served = .error error := by
  have hserve (ms : List Middleware) : (ms.foldl add { handler := h }).serve = chain ms h := by
    rw [foldl_add, serve, List.nil_append]
  refine ⟨fun ms => ⟨(hserve ms).trans (chain_eq_foldr ms h), fun k => ?_⟩, fun stages r σ w s => ?_⟩
  · rw [hserve, serve, serve, ← chain_append, List.take_append_drop]
  · intro serves run log
    have herase : (tracked h 0 stages r).erase = serves := by
      rw [erase_tracked, ← hserve]
    have hends := (tracked h 0 stages r).ends_run w s
    rw [herase] at hends
    obtain ⟨later, hpassage, hlength, hentries, -, hmoments⟩ := hends.passage
    refine ⟨herase, later, hpassage, Nat.succ_le_succ hlength, ?_, fun place => ?_, ?_⟩
    · rw [List.length_cons, List.range_eq_range']
      exact hentries
    · rw [← hmoments, Nat.zero_add]
    · exact fun error j k v v' hv herror hj hv' hstages => hpassage.hands_on hv herror hj hv' hstages

/-- A handler fails behind a tunnel that has nothing to do, and so the tunnel fails. -/
theorem passes_failure :
    let error : HandlerError := .lacksCapability .flush
    let h : Handler := fun _ => .returns (.error error)
    let w : World Minimal := ⟨Minimal.channel, ⟨fun _ _ => .timedOut, fun _ => .ok (), fun _ => none⟩⟩
    let stages := [Tunnel.stage .standard]
    (∀ m ∈ stages, m.HandsOn error) ∧ entries ((tracked h 0 stages {}).log w {}) = [0, 1] ∧
      ∀ served, ((((stages.map Stage.middleware).foldl add { handler := h }).serve {}).run w {}).outcome =
        .returned served → served = .error error := by
  intro error h w stages
  have hstages : ∀ m ∈ stages, m.HandsOn error := by
    intro m hm kept
    obtain rfl := List.mem_singleton.mp hm
    exact rfl
  have hlog : (tracked h 0 stages {}).log w {} =
    [⟨0, .entered {}⟩, ⟨1, .entered {}⟩, ⟨1, .left (.error error)⟩, ⟨0, .left (.error error)⟩] := rfl
  obtain ⟨-, later, -, -, -, hmoments, hands⟩ := (passes_in_order h).2 stages {} w {}
  have hsecond := hmoments 1
  rw [hlog] at hsecond
  cases later with
  | nil => cases hsecond
  | cons v later =>
    have hfails : .left (.error error) ∈ v.moments := by
      rw [show v.moments = [.entered {}, .left (.error error)] from hsecond.symm]
      simp
    refine ⟨hstages, by rw [hlog]; rfl, ?_⟩
    exact hands error 0 1 v _ rfl (Stay.left_mem_moments.mp hfails) (Nat.zero_le 1) rfl hstages

end Pipeline

end UpgradeBridge
