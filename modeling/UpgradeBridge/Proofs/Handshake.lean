/-
A protocol switch in front of a streamed response, and what its state says about
what the client was sent.

Behind the switch a run of moves is a run of other moves on the exchange itself,
its `conveyed` moves: a commit of 200 that finds the switch waiting becomes the
edits of the handshake and a commit of 101. So what is known of exchanges says
which head is handed over.

The switch sees the commits that it is asked for. It does not see the 200 that
the stream commits by itself where octets or a flush come first, and those runs
are exactly the ones in which state and head disagree.
-/
import UpgradeBridge.Proofs.Exchange
import UpgradeBridge.Proofs.ProtocolSwitch

namespace UpgradeBridge

/-- An exchange whose channel's side acts behind a protocol switch. -/
structure Handshake where
  exchange : Exchange
  state : ProtocolSwitch.State := .waiting

/-- The action that makes an edit. -/
def Action.ofEdit : Headers.Edit → Action
  | .set name value => .set name value
  | .append name value => .append name value
  | .remove name => .remove name

/-- Edits change the staged header fields of a stream only. -/
theorem Stream.editAll_eq (s : Stream) (edits : List Headers.Edit) : Stream.channel.editAll s edits =
    { s with headers := edits.foldl Headers.Edit.apply s.headers } := by
  induction edits generalizing s with
  | nil => rfl
  | cons edit edits ih => exact ih { s with headers := edit.apply s.headers }

namespace Handshake

open Exchange (Move Result FirstCommit NeverCommits)
open ProtocolSwitch (State Turns)

/-- A handshake in which nothing has happened. -/
def start (upgrade : Option UpgradeHandle) : Handshake :=
  { exchange := .start upgrade }

/-- An action of the channel's side, behind the switch. -/
def act (p : ProtocolSwitch) (action : Action) (h : Handshake) : Result × Handshake :=
  if h.exchange.present then
    let run := (p.apply h.state action.program).run Exchange.world h.exchange.stream
    let exchange := { h.exchange with stream := run.state }
    match run.outcome with
    | .returned (answer, state) => (.answer answer, { exchange, state })
    | _ => (.pending, { h with exchange })
  else (.absent, h)

/-- One step of either side. -/
def step (p : ProtocolSwitch) (h : Handshake) : Move → Result × Handshake
  | .act action => h.act p action
  | m => ((h.exchange.step m).1, { h with exchange := (h.exchange.step m).2 })

/-- The handshake after some moves. -/
def after (p : ProtocolSwitch) (h : Handshake) (moves : List Move) : Handshake :=
  moves.foldl (fun h m => (h.step p m).2) h

/-- The heads that the receiver is handed in the course of some moves. -/
def heads (p : ProtocolSwitch) : Handshake → List Move → List Head
  | _, [] => []
  | h, m :: moves => (h.step p m).1.head?.toList ++ heads p (h.step p m).2 moves

/-- The heads that the receiver was handed or can still have. -/
def delivered (p : ProtocolSwitch) (h : Handshake) (moves : List Move) : List Head :=
  h.heads p moves ++ (h.after p moves).exchange.stream.slot.waiting

/-- The moves on the exchange itself that a move behind the switch amounts to. -/
def turn (p : ProtocolSwitch) (state : State) (m : Move) : List Move :=
  if state = .waiting ∧ m = .act (.status .ok) then
    p.edits.map (fun edit => .act (.ofEdit edit)) ++ [.act (.status .switchingProtocols)]
  else [m]

/-- The moves on the exchange itself that a run behind the switch amounts to. -/
def conveyed (p : ProtocolSwitch) : Handshake → List Move → List Move
  | _, [] => []
  | h, m :: moves => turn p h.state m ++ conveyed p (h.step p m).2 moves

theorem after_append (p : ProtocolSwitch) (h : Handshake) (moves more : List Move) :
    h.after p (moves ++ more) = (h.after p moves).after p more :=
  List.foldl_append

theorem conveyed_append (p : ProtocolSwitch) (h : Handshake) (moves more : List Move) :
    h.conveyed p (moves ++ more) = h.conveyed p moves ++ (h.after p moves).conveyed p more := by
  induction moves generalizing h with
  | nil => rfl
  | cons m moves ih =>
    simp only [List.cons_append, conveyed, ih, List.append_assoc]
    rfl

theorem turn_of_ne {p : ProtocolSwitch} {state : State} {m : Move}
    (h : state = .waiting → m ≠ .act (.status .ok)) : turn p state m = [m] :=
  if_neg fun ⟨hs, hm⟩ => h hs hm

/-- An action conveys actions. -/
theorem acts_of_turn (p : ProtocolSwitch) (state : State) (a : Action) {m : Move}
    (hm : m ∈ turn p state (.act a)) : ∃ a, m = .act a := by
  unfold turn at hm
  split at hm
  · simp only [List.mem_append, List.mem_map, List.mem_singleton] at hm
    rcases hm with ⟨edit, -, rfl⟩ | rfl <;> exact ⟨_, rfl⟩
  · exact ⟨a, List.mem_singleton.mp hm⟩

/-! ## Actions behind the switch -/

/-- Any other action asks for anything but a commit of 200. -/
theorem only_of_ne {a : Action} (ha : a ≠ .status .ok) :
    a.program.Only (· ≠ .call (.writeStatus .ok)) := by
  cases a with
  | status status => exact ⟨fun h => ha (by simpa using h), fun _ => trivial⟩
  | hijack send =>
    refine ⟨by simp, fun reply => ?_⟩
    cases reply with
    | error e => trivial
    | ok hijacked =>
      cases send with
      | none => trivial
      | some data => exact ⟨by simp, fun _ => trivial⟩
  | _ => exact ⟨by simp, fun _ => trivial⟩

/-- No action but the commit of 200 turns the switch. -/
theorem not_turns {a : Action} (ha : a ≠ .status .ok) {σ : Type} (w : World σ) (s : σ)
    (before after : List Exchanged) : ¬ Turns (a.program.run w s).trace before after := by
  rintro ⟨htrace, -⟩
  have hmem : Exchanged.commit .ok ∈ (a.program.run w s).trace := by
    rw [htrace]
    simp
  exact (only_of_ne ha).mem_trace w s _ hmem rfl

theorem act_of_present (p : ProtocolSwitch) {h : Handshake} (hp : h.exchange.present = true)
    (a : Action) : (h.act p a).1.head? = none ∧
      (h.act p a).2.exchange = { h.exchange with
        stream := ((p.apply h.state a.program).run Exchange.world h.exchange.stream).state } ∧
      (h.act p a).2.state =
        match ((p.apply h.state a.program).run Exchange.world h.exchange.stream).outcome with
        | .returned (_, state) => state
        | _ => h.state := by
  simp only [act, hp, if_true]
  split <;> exact ⟨rfl, rfl, rfl⟩

theorem act_of_not_present (p : ProtocolSwitch) {h : Handshake} (hp : h.exchange.present = false)
    (a : Action) : h.act p a = (.absent, h) := by
  simp [act, hp]

/-- An action that does not turn the switch is run as without it, and the switch sees its
conversation. -/
theorem run_of_not_turn (p : ProtocolSwitch) {state : State} {a : Action}
    (ha : state = .waiting → a ≠ .status .ok) {σ : Type} (w : World σ) (s : σ) :
    (p.apply state a.program).run w s = ProtocolSwitch.seen state (a.program.run w s) := by
  by_cases hs : state = .waiting
  · rw [hs, p.run_apply_of_not_turns _ _ _ (not_turns (ha hs) _ _)]
  · exact p.run_apply_of_ne_waiting _ _ _ hs

/-- Actions that make edits stage them. -/
theorem after_edits {e : Exchange} (hp : e.present = true) (edits : List Headers.Edit) :
    e.after (edits.map fun edit => .act (.ofEdit edit)) = { e with
        stream := { e.stream with headers := edits.foldl Headers.Edit.apply e.stream.headers } } ∧
      e.heads (edits.map fun edit => .act (.ofEdit edit)) = [] := by
  induction edits generalizing e with
  | nil => exact ⟨rfl, rfl⟩
  | cons edit edits ih =>
    obtain ⟨hstate, hhead⟩ := Exchange.act_of_present hp (.ofEdit edit)
    have hrun : ((Action.ofEdit edit).program.run Exchange.world e.stream).state =
        { e.stream with headers := edit.apply e.stream.headers } := by
      cases edit <;> rfl
    rw [hrun] at hstate
    obtain ⟨hafter, hheads⟩ := ih (e := (e.act (.ofEdit edit)).2) (by rw [hstate]; exact hp)
    rw [List.map_cons, Exchange.heads, Exchange.step, hhead, hheads, Exchange.after, List.foldl_cons]
    refine ⟨hafter.trans ?_, rfl⟩
    rw [hstate]
    rfl

/-- Where the switch turns, the edits of the handshake and the commit of 101 are made. -/
theorem run_turn (p : ProtocolSwitch) (s : Stream) :
    ((p.apply .waiting (Action.status .ok).program).run Exchange.world s).outcome =
        .returned (.done, .switched) ∧
      ((p.apply .waiting (Action.status .ok).program).run Exchange.world s).state =
        { s with headers := p.edits.foldl Headers.Edit.apply s.headers }.writeStatus
          .switchingProtocols := by
  have hprogram : p.apply .waiting (Action.status .ok).program =
      ProtocolSwitch.stage p.edits (.perform (.call (.writeStatus .switchingProtocols)) fun _ =>
        .returns (.done, .switched)) := p.apply_perform_ready _
  obtain ⟨staged, -, -, hrun⟩ := ProtocolSwitch.run_stage Exchange.world
    (.perform (.call (.writeStatus .switchingProtocols)) fun _ =>
      .returns (Answer.done, State.switched)) p.edits s
  rw [hprogram, hrun, show Exchange.world.channel = Stream.channel from rfl, Stream.editAll_eq]
  exact ⟨rfl, rfl⟩

/-! ## Runs behind the switch -/

/-- The channel's side is answered behind the switch as it is without. -/
theorem step_result (p : ProtocolSwitch) (h : Handshake) {a : Action} (ha : a ≠ .status .ok) :
    (h.step p (.act a)).1 = (h.exchange.step (.act a)).1 := by
  cases hp : h.exchange.present with
  | true =>
    simp only [step, act, Exchange.step, Exchange.act, hp, if_true, run_of_not_turn p fun _ => ha,
      ProtocolSwitch.seen]
    cases (a.program.run Exchange.world h.exchange.stream).outcome <;> rfl
  | false =>
    rw [step, act_of_not_present p hp, Exchange.step, Exchange.act_of_not_present hp]

theorem after_acts_of_not_present {e : Exchange} (hp : e.present = false) {moves : List Move}
    (hacts : ∀ m ∈ moves, ∃ a, m = .act a) : e.after moves = e ∧ e.heads moves = [] := by
  induction moves with
  | nil => exact ⟨rfl, rfl⟩
  | cons m moves ih =>
    obtain ⟨a, rfl⟩ := hacts m (by simp)
    obtain ⟨hafter, hheads⟩ := ih fun x hx => hacts x (by simp [hx])
    rw [Exchange.after, List.foldl_cons, Exchange.heads, Exchange.step, Exchange.act_of_not_present hp]
    exact ⟨hafter, hheads⟩

/-- A step behind the switch is the steps that it conveys. -/
theorem step_conveys (p : ProtocolSwitch) (h : Handshake) (m : Move) :
    (h.step p m).2.exchange = h.exchange.after (turn p h.state m) ∧
      (h.step p m).1.head?.toList = h.exchange.heads (turn p h.state m) := by
  by_cases hturn : h.state = .waiting ∧ m = .act (.status .ok)
  · obtain ⟨hs, rfl⟩ := hturn
    rw [step]
    cases hp : h.exchange.present with
    | true =>
      rw [turn, if_pos ⟨hs, rfl⟩]
      obtain ⟨hhead, hexchange, -⟩ := act_of_present p hp (.status .ok)
      obtain ⟨hafter, hheads⟩ := after_edits hp p.edits
      rw [hs, (run_turn p h.exchange.stream).2] at hexchange
      rw [hexchange, hhead, Exchange.heads_append, hheads, Exchange.after_append, hafter]
      obtain ⟨hstate, hhead⟩ := Exchange.act_of_present (e := { h.exchange with
        stream := { h.exchange.stream with
          headers := p.edits.foldl Headers.Edit.apply h.exchange.stream.headers } })
        hp (.status .switchingProtocols)
      refine ⟨hstate.symm, ?_⟩
      rw [Exchange.heads, Exchange.step, hhead]
      rfl
    | false =>
      obtain ⟨hafter, hheads⟩ := after_acts_of_not_present hp fun m hm =>
        acts_of_turn p h.state (.status .ok) hm
      rw [hafter, hheads, act_of_not_present p hp]
      exact ⟨rfl, rfl⟩
  · rw [turn, if_neg hturn, Exchange.heads, Exchange.heads, List.append_nil]
    cases m with
    | act a =>
      have ha : h.state = .waiting → a ≠ .status .ok := fun hs ha => hturn ⟨hs, ha ▸ rfl⟩
      cases hp : h.exchange.present with
      | true =>
        obtain ⟨hhead, hexchange, -⟩ := act_of_present p hp a
        obtain ⟨hexchange', hhead'⟩ := Exchange.act_of_present hp a
        rw [run_of_not_turn p ha] at hexchange
        rw [step, Exchange.step, hhead, hhead']
        exact ⟨hexchange.trans hexchange'.symm, rfl⟩
      | false =>
        rw [step, act_of_not_present p hp, Exchange.step, Exchange.act_of_not_present hp]
        exact ⟨(congrArg Prod.snd (Exchange.act_of_not_present hp a)).symm, rfl⟩
    | _ => exact ⟨rfl, rfl⟩

/-- **A run behind the switch is the run that it conveys**. -/
theorem after_conveys (p : ProtocolSwitch) (h : Handshake) (moves : List Move) :
    (h.after p moves).exchange = h.exchange.after (h.conveyed p moves) ∧
      h.heads p moves = h.exchange.heads (h.conveyed p moves) := by
  induction moves generalizing h with
  | nil => exact ⟨rfl, rfl⟩
  | cons m moves ih =>
    obtain ⟨hexchange, hhead⟩ := step_conveys p h m
    obtain ⟨hafter, hheads⟩ := ih (h.step p m).2
    rw [conveyed, Exchange.after_append, Exchange.heads_append, ← hexchange, ← hhead, ← hheads]
    exact ⟨hafter, rfl⟩

/-! ## The state of the switch -/

/-- Once the switch has left its first state, a step behind it shows it some conversation. -/
theorem step_state (p : ProtocolSwitch) {h : Handshake} (hs : h.state ≠ .waiting) (m : Move) :
    ∃ asked, (h.step p m).2.state = h.state.after asked := by
  cases m with
  | act a =>
    cases hp : h.exchange.present with
    | true =>
      obtain ⟨-, -, hstate⟩ := act_of_present p hp a
      rw [run_of_not_turn p fun h => absurd h hs] at hstate
      rw [step, hstate, ProtocolSwitch.seen]
      cases (a.program.run Exchange.world h.exchange.stream).outcome with
      | returned answer => exact ⟨_, rfl⟩
      | _ => exact ⟨[], rfl⟩
    | false =>
      rw [step, act_of_not_present p hp]
      exact ⟨[], rfl⟩
  | _ => exact ⟨[], rfl⟩

/-- The switch never waits again, and never switches later. -/
theorem after_state (p : ProtocolSwitch) {h : Handshake} (hs : h.state ≠ .waiting)
    (moves : List Move) : (h.after p moves).state ≠ .waiting ∧
      (h.state ≠ .switched → (h.after p moves).state ≠ .switched) := by
  induction moves generalizing h with
  | nil => exact ⟨hs, id⟩
  | cons m moves ih =>
    obtain ⟨asked, hstep⟩ := step_state p hs m
    obtain ⟨hwaiting, hswitched⟩ := ih (h := (h.step p m).2) (hstep ▸ State.after_ne_waiting hs asked)
    exact ⟨hwaiting, fun h => hswitched (hstep ▸ State.after_ne_switched hs h asked)⟩

/-- Before the commit, a move that does not commit leaves the switch waiting. -/
theorem step_quiet (p : ProtocolSwitch) {h : Handshake} (hs : h.state = .waiting) {staged : Headers}
    {gone : Bool} (ho : h.exchange.Open staged gone) {m : Move} (hm : m.Quiet) :
    turn p h.state m = [m] ∧ (h.step p m).2.state = .waiting := by
  have hne : m ≠ .act (.status .ok) := by
    rintro rfl
    cases hm.1
  refine ⟨turn_of_ne fun _ => hne, ?_⟩
  cases m with
  | act a =>
    obtain ⟨-, -, hstate⟩ := act_of_present p ho.present a
    rw [run_of_not_turn p fun _ ha => hne (ha ▸ rfl), hs] at hstate
    rw [step, hstate]
    cases a with
    | hijack send =>
      have hanswer : Exchange.world.answer (.call .hijack) h.exchange.stream =
          .replied (.error .notCommitted) h.exchange.stream :=
        Stream.hijack_of_not_committed ho.isCommitted
      simp only [Action.program, bind, Program.bind, Program.call]
      rw [Program.run_perform_replied _ hanswer]
      rfl
    | status | write | flush => cases hm.1
    | _ => rfl
  | _ => exact hs

theorem after_quiet (p : ProtocolSwitch) {h : Handshake} (hs : h.state = .waiting) {staged : Headers}
    {gone : Bool} (ho : h.exchange.Open staged gone) {moves : List Move} (hm : ∀ m ∈ moves, m.Quiet) :
    h.conveyed p moves = moves ∧ (h.after p moves).state = .waiting := by
  induction moves generalizing h staged gone with
  | nil => exact ⟨rfl, hs⟩
  | cons m moves ih =>
    obtain ⟨hturn, hstate⟩ := step_quiet p hs ho (hm m (by simp))
    have hexchange := (step_conveys p h m).1
    rw [hturn] at hexchange
    have hopen := (ho.step (hm m (by simp))).1
    rw [show (h.exchange.step m).2 = (h.step p m).2.exchange from hexchange.symm] at hopen
    obtain ⟨hconveyed, hafter⟩ := ih hstate hopen fun x hx => hm x (by simp [hx])
    rw [conveyed, hturn, hconveyed]
    exact ⟨rfl, hafter⟩

theorem start_quiet (p : ProtocolSwitch) (upgrade : Option UpgradeHandle) {moves : List Move}
    (hm : ∀ m ∈ moves, m.Quiet) : (start upgrade).conveyed p moves = moves ∧
      ((start upgrade).after p moves).state = .waiting :=
  after_quiet p rfl (Exchange.open_start upgrade) hm

/-- Without the channel's side the switch sees nothing. -/
theorem after_of_not_present (p : ProtocolSwitch) {h : Handshake} (hp : h.exchange.present = false)
    (moves : List Move) : (h.after p moves).state = h.state := by
  induction moves generalizing h with
  | nil => rfl
  | cons m moves ih =>
    have hstep : (h.step p m).2.exchange.present = false ∧ (h.step p m).2.state = h.state := by
      cases m with
      | act a =>
        rw [step, act_of_not_present p hp]
        exact ⟨hp, rfl⟩
      | dropChannel => exact ⟨rfl, rfl⟩
      | _ => exact ⟨(Exchange.step_sameSide h.exchange (by simp) (by simp)).present.trans hp, rfl⟩
    exact (ih hstep.1).trans hstep.2

/-! ## What the client is sent -/

theorem dropHead_not_mem_turn {p : ProtocolSwitch} {state : State} {m : Move} (h : m ≠ .dropHead) :
    .dropHead ∉ turn p state m := by
  unfold turn
  split <;> simp [h.symm]

theorem dropHead_not_mem_conveyed {p : ProtocolSwitch} {moves : List Move} :
    ∀ {h : Handshake}, .dropHead ∉ moves → .dropHead ∉ h.conveyed p moves := by
  induction moves with
  | nil => exact fun h => h
  | cons m moves ih =>
    intro h hd
    rw [List.mem_cons, not_or] at hd
    rw [conveyed, List.mem_append, not_or]
    exact ⟨dropHead_not_mem_turn (Ne.symm hd.1), ih hd.2⟩

theorem delivered_eq (p : ProtocolSwitch) (h : Handshake) (moves : List Move) :
    h.delivered p moves = h.exchange.heads (h.conveyed p moves) ++
      (h.exchange.after (h.conveyed p moves)).stream.slot.waiting := by
  obtain ⟨hafter, hheads⟩ := h.after_conveys p moves
  rw [delivered, hafter, hheads]

/-- What a run before its first commit conveys. -/
theorem conveyed_of_firstCommit (p : ProtocolSwitch) (upgrade : Option UpgradeHandle)
    {moves before rest : List Move} {m : Move} {status : Status}
    (h : FirstCommit moves before m status rest) :
    ((start upgrade).after p before).state = .waiting ∧
      (start upgrade).conveyed p moves = before ++ (turn p .waiting m ++
        ((start upgrade).after p (before ++ [m])).conveyed p rest) := by
  obtain ⟨hconveyed, hstate⟩ := start_quiet p upgrade h.quiet
  refine ⟨hstate, ?_⟩
  rw [h.split, conveyed_append, hconveyed, conveyed, hstate, after_append]
  rfl

/-- A first commit that does not turn the switch is what the client is sent. -/
theorem delivered_of_not_turn (p : ProtocolSwitch) (upgrade : Option UpgradeHandle)
    {moves before rest : List Move} {m : Move} {status : Status}
    (h : FirstCommit moves before m status rest) (hd : .dropHead ∉ moves)
    (hm : m ≠ .act (.status .ok)) :
    (start upgrade).delivered p moves = [⟨status, Exchange.staged before⟩] := by
  have hconveyed := (conveyed_of_firstCommit p upgrade h).2
  rw [turn_of_ne fun _ => hm] at hconveyed
  have hfirst : FirstCommit ((start upgrade).conveyed p moves) before m status _ :=
    ⟨hconveyed, h.quiet, h.commits⟩
  rw [delivered_eq]
  exact hfirst.heads_eq (dropHead_not_mem_conveyed hd)

/-- Where a run first commits 200 by its own call, what it conveys first commits 101, after the edits of
the handshake. -/
theorem firstCommit_conveyed (p : ProtocolSwitch) (upgrade : Option UpgradeHandle)
    {moves before rest : List Move} (h : FirstCommit moves before (.act (.status .ok)) .ok rest) :
    ∃ rest, FirstCommit ((start upgrade).conveyed p moves)
      (before ++ p.edits.map fun edit => .act (.ofEdit edit)) (.act (.status .switchingProtocols))
      .switchingProtocols rest := by
  have hconveyed := (conveyed_of_firstCommit p upgrade h).2
  rw [turn, if_pos ⟨rfl, rfl⟩, List.append_assoc, ← List.append_assoc] at hconveyed
  -- the edits are quiet, so the commit of 101 is the first one that is conveyed
  have hquiet : ∀ x ∈ before ++ p.edits.map (fun edit => .act (.ofEdit edit)), x.Quiet := by
    intro x hx
    rcases List.mem_append.mp hx with hx | hx
    · exact h.quiet x hx
    · obtain ⟨edit, -, rfl⟩ := List.mem_map.mp hx
      cases edit <;> exact ⟨rfl, by simp⟩
  exact ⟨_, hconveyed, hquiet, rfl⟩

/-- A first commit of 200 by its own call is answered with the completed handshake. -/
theorem delivered_of_turn (p : ProtocolSwitch) (upgrade : Option UpgradeHandle)
    {moves before rest : List Move}
    (h : FirstCommit moves before (.act (.status .ok)) .ok rest) (hd : .dropHead ∉ moves) :
    ∃ headers, (start upgrade).delivered p moves = [⟨.switchingProtocols, headers⟩] ∧
      p.Completes (Exchange.staged before) headers := by
  obtain ⟨_, hfirst⟩ := firstCommit_conveyed p upgrade h
  refine ⟨_, by rw [delivered_eq]; exact hfirst.heads_eq (dropHead_not_mem_conveyed hd), ?_⟩
  have hstaged : Exchange.staged (before ++ p.edits.map fun edit => .act (.ofEdit edit)) =
      p.edits.foldl Headers.Edit.apply (Exchange.staged before) := by
    rw [Exchange.staged, List.foldl_append, List.foldl_map]
    congr 1
    funext headers edit
    cases edit <;> rfl
  rw [hstaged]
  exact p.completes_edits _

/-- What the state of the handshake says about the heads that the client was sent. -/
structure Agrees (p : ProtocolSwitch) (h : Handshake) (sent : List Head) : Prop where
  not_ok : ∀ head ∈ sent, head.status ≠ .ok
  switched : h.state = .switched → ∃ given headers,
    sent = [⟨.switchingProtocols, headers⟩] ∧ p.Completes given headers
  waiting : h.state = .waiting → h.exchange.stream.status = none

/-- The first commit is a 200 that was not asked for as such: octets or a flush came first. -/
def CommitsImplicitly (moves : List Move) : Prop :=
  ∃ before m rest, FirstCommit moves before m .ok rest ∧ m ≠ .act (.status .ok)

theorem CommitsImplicitly.of_take {moves : List Move} {n : Nat}
    (h : CommitsImplicitly (moves.take n)) : CommitsImplicitly moves := by
  obtain ⟨before, m, rest, hfirst, hm⟩ := h
  refine ⟨before, m, rest ++ moves.drop n, ⟨?_, hfirst.quiet, hfirst.commits⟩, hm⟩
  rw [← List.cons_append, ← List.append_assoc, ← hfirst.split, List.take_append_drop]

/-- A run in which nothing commits is a run without the switch, and leaves it waiting. -/
theorem agrees_of_never (p : ProtocolSwitch) (upgrade : Option UpgradeHandle)
    {moves : List Move} (h : NeverCommits moves) :
    Agrees p ((start upgrade).after p moves) ((start upgrade).delivered p moves) := by
  have hconveyed : NeverCommits ((start upgrade).conveyed p moves) := by
    rcases h with hquiet | ⟨before, rest, rfl, hquiet⟩
    · rw [(start_quiet p upgrade hquiet).1]
      exact .inl hquiet
    · rw [conveyed_append, (start_quiet p upgrade hquiet).1, conveyed,
        turn_of_ne (by simp)]
      exact .inr ⟨before, _, rfl, hquiet⟩
  have hstate : ((start upgrade).after p moves).state = .waiting := by
    rcases h with hquiet | ⟨before, rest, rfl, hquiet⟩
    · exact (start_quiet p upgrade hquiet).2
    · rw [after_append, after, List.foldl_cons]
      exact (after_of_not_present p rfl rest).trans (start_quiet p upgrade hquiet).2
  obtain ⟨hstatus, hsent⟩ := hconveyed.uncommitted upgrade
  have hdelivered : (start upgrade).delivered p moves = [] := by
    rw [delivered_eq]
    exact hsent
  rw [hdelivered]
  refine ⟨by simp, fun h => ?_, fun _ => ?_⟩
  · rw [hstate] at h
    cases h
  · rw [((start upgrade).after_conveys p moves).1]
    exact hstatus

/-- The switch sees a commit that is asked for. -/
theorem step_status (p : ProtocolSwitch) {h : Handshake} (hs : h.state = .waiting)
    (hp : h.exchange.present = true) (status : Status) :
    (h.step p (.act (.status status))).2.state = if status = .ok then .switched else .passed := by
  obtain ⟨-, -, hstate⟩ := act_of_present p hp (.status status)
  rw [step, hstate, hs]
  by_cases hok : status = .ok
  · rw [if_pos hok, hok, (run_turn p h.exchange.stream).1]
  · rw [if_neg hok, run_of_not_turn p fun _ ha => hok (Action.status.inj ha)]
    have hready : isTunnelReady status = false := by simpa [isTunnelReady] using hok
    show State.next .waiting (Exchanged.commit status) = .passed
    simp [State.next, Exchanged.commit, hready]

/-- A run whose first commit was asked for leaves state and head in agreement. -/
theorem agrees_of_status (p : ProtocolSwitch) (upgrade : Option UpgradeHandle)
    {moves before rest : List Move} {status : Status} (hd : .dropHead ∉ moves)
    (h : FirstCommit moves before (.act (.status status)) status rest) :
    Agrees p ((start upgrade).after p moves) ((start upgrade).delivered p moves) := by
  have hwaiting := (conveyed_of_firstCommit p upgrade h).1
  have hpresent : ((start upgrade).after p before).exchange.present = true := by
    obtain ⟨hopen, -⟩ := (Exchange.open_start upgrade).after h.quiet
    rw [((start upgrade).after_conveys p before).1,
      (start_quiet p upgrade h.quiet).1]
    exact hopen.present
  have hstep := step_status p hwaiting hpresent status
  have hafter : (start upgrade).after p moves =
      (((start upgrade).after p before).step p (.act (.status status))).2.after p rest := by
    rw [h.split, after_append]
    rfl
  have hne : (((start upgrade).after p before).step p (.act (.status status))).2.state ≠ .waiting := by
    rw [hstep]
    split <;> simp
  obtain ⟨hnever, hswitched⟩ := after_state p hne rest
  rw [← hafter] at hnever hswitched
  by_cases hok : status = .ok
  · subst hok
    obtain ⟨headers, hsent, hcompletes⟩ := delivered_of_turn p upgrade h hd
    rw [hsent]
    exact ⟨by simp [Status.ok, Status.switchingProtocols], fun _ => ⟨_, headers, rfl, hcompletes⟩,
      fun hstate => absurd hstate hnever⟩
  · rw [delivered_of_not_turn p upgrade h hd fun hm => hok (by simpa using hm)]
    rw [hstep, if_neg hok] at hswitched
    exact ⟨by simpa using hok, fun hstate => absurd hstate (hswitched (by simp)),
      fun hstate => absurd hstate hnever⟩

/-- Unless octets or a flush commit 200 first, state and head agree in the end. -/
theorem agrees_of_not_implicit (p : ProtocolSwitch) (upgrade : Option UpgradeHandle)
    {moves : List Move} (hd : .dropHead ∉ moves) (h : ¬ CommitsImplicitly moves) :
    Agrees p ((start upgrade).after p moves) ((start upgrade).delivered p moves) := by
  rcases Exchange.firstCommit_or_never moves with ⟨before, m, status, rest, hfirst⟩ | hnever
  · rcases Exchange.Move.eq_of_commit? hfirst.commits with rfl | ⟨rfl, hm⟩
    · exact agrees_of_status p upgrade hd hfirst
    · exact absurd ⟨before, m, rest, hfirst, hm⟩ h
  · exact agrees_of_never p upgrade hnever

/-- **State and head agree exactly where 200 is committed by its own call.** In a run whose receiver is
not dropped they agree after every move if and only if no octets and no flush come before the first
commit. A first commit of 200 is answered by a head of 101 that completes the handshake if it is
asked for, and by a head of 200 with the staged header fields if octets or a flush made it. -/
theorem agrees_iff (p : ProtocolSwitch) (upgrade : Option UpgradeHandle) (moves : List Move)
    (hd : .dropHead ∉ moves) :
    ((∀ n, Agrees p ((start upgrade).after p (moves.take n))
      ((start upgrade).delivered p (moves.take n))) ↔ ¬ CommitsImplicitly moves) ∧
    ∀ before m rest, FirstCommit moves before m .ok rest →
      if m = .act (.status .ok) then
        ∃ headers, (start upgrade).delivered p moves = [⟨.switchingProtocols, headers⟩] ∧
          p.Completes (Exchange.staged before) headers
      else (start upgrade).delivered p moves = [⟨.ok, Exchange.staged before⟩] := by
  refine ⟨⟨fun hagrees himplicit => ?_, fun h n => ?_⟩, fun before m rest hfirst => ?_⟩
  · obtain ⟨before, m, rest, hfirst, hm⟩ := himplicit
    have hlast := hagrees moves.length
    rw [List.take_length, delivered_of_not_turn p upgrade hfirst hd hm] at hlast
    exact hlast.not_ok _ (List.mem_singleton.mpr rfl) rfl
  · exact agrees_of_not_implicit p upgrade (fun hmem => hd (List.mem_of_mem_take hmem))
      fun himplicit => h himplicit.of_take
  · split
    · next hm =>
      subst hm
      exact delivered_of_turn p upgrade hfirst hd
    · next hm => exact delivered_of_not_turn p upgrade hfirst hd hm

/-- When 200 is asked for, the client takes a head that completes the handshake. -/
theorem delivered_after_ready : Move.dropHead ∉ [Move.act (.status .ok), .takeHead] ∧
    ∃ headers, (start none).delivered ⟨"dGhlIHNhbXBsZSBub25jZQ==", .standard⟩
        [.act (.status .ok), .takeHead] = [⟨.switchingProtocols, headers⟩] ∧
      ProtocolSwitch.Completes ⟨"dGhlIHNhbXBsZSBub25jZQ==", .standard⟩ ∅ headers :=
  ⟨by simp, (agrees_iff ⟨"dGhlIHNhbXBsZSBub25jZQ==", .standard⟩ none _ (by simp)).2
    [] (.act (.status .ok)) [.takeHead] ⟨rfl, by simp, rfl⟩⟩

/-- After a flush the client is sent 200 while the switch still waits. -/
theorem not_agrees_after_flush :
    ¬ Agrees ⟨"dGhlIHNhbXBsZSBub25jZQ==", .standard⟩
        ((start none).after ⟨"dGhlIHNhbXBsZSBub25jZQ==", .standard⟩ [.act .flush])
        ((start none).delivered ⟨"dGhlIHNhbXBsZSBub25jZQ==", .standard⟩ [.act .flush]) ∧
      (start none).delivered ⟨"dGhlIHNhbXBsZSBub25jZQ==", .standard⟩ [.act .flush] = [⟨.ok, ∅⟩] ∧
      ((start none).after ⟨"dGhlIHNhbXBsZSBub25jZQ==", .standard⟩ [.act .flush]).state = .waiting ∧
      ((start none).after ⟨"dGhlIHNhbXBsZSBub25jZQ==", .standard⟩
        [.act .flush]).exchange.stream.status = some .ok := by
  refine ⟨fun h => ?_, rfl, rfl, rfl⟩
  exact h.not_ok ⟨.ok, ∅⟩ (List.mem_singleton.mpr rfl) rfl

end Handshake

end UpgradeBridge
