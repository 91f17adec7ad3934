/-
What the key of a client has an influence on. Two requests for a WebSocket that
differ in their keys only are handed on as the same request, or are refused for
the same reason; and behind the switches for the two keys a handler does the same
but for the value that it gives Sec-WebSocket-Accept.

`Program.SameButToken` says the latter of programs, and `Recorder.mask` takes these
values out of all that a recorder holds. A handler that does not read back what it
staged cannot tell the two apart, which carries the main theorem.
-/
import UpgradeBridge.Channel.Recorder
import UpgradeBridge.Proofs.Routing
import UpgradeBridge.Script

namespace UpgradeBridge

open Header

/-! ## Requests -/

namespace Request

/-- Nothing tells the two requests apart, if it does not look at the order in which different header
names came. -/
structure Same (r r' : Request) : Prop where
  method : r.method = r'.method
  uri : r.uri = r'.uri
  body : r.body = r'.body
  values : ∀ n, r.headers.values n = r'.headers.values n

/-- Nothing but the values of one header name tells the two requests apart. -/
structure SameBut (name : Name) (r r' : Request) : Prop where
  method : r.method = r'.method
  uri : r.uri = r'.uri
  body : r.body = r'.body
  values : ∀ n, n ≠ name → r.headers.values n = r'.headers.values n

end Request

namespace Upgrade

theorem host_eq_of_sameBut {r₁ r₂ : Request} {u₁ u₂ : Upgrade}
    (hsame : r₁.SameBut Name.secWebSocketKey r₂) (h₁ : detect r₁ = some u₁)
    (h₂ : detect r₂ = some u₂) : u₁.host = u₂.host := by
  have hvalues := hsame.values Name.xConnectHost (by decide)
  have hlast₁ := (host_of_detect h₁).1
  have hlast₂ := (host_of_detect h₂).1
  rw [Headers.last?, hvalues] at hlast₁
  exact Option.some.inj (hlast₁.symm.trans hlast₂)

/-- What is handed on holds nothing of the key. -/
theorem retarget_same {r₁ r₂ c₁ c₂ : Request} {u₁ u₂ : Upgrade}
    (hsame : r₁.SameBut Name.secWebSocketKey r₂) (hhost : u₁.host = u₂.host)
    (h₁ : u₁.retarget r₁ = .ok c₁) (h₂ : u₂.retarget r₂ = .ok c₂) : c₁.Same c₂ := by
  have htarget : u₁.target? = u₂.target? := by rw [target?, target?, hostText, hostText, hhost]
  unfold retarget at h₁ h₂
  rw [htarget, hhost] at h₁
  split at h₂
  · cases h₂
  · next uri huri =>
    rw [huri] at h₁
    cases h₁
    cases h₂
    refine ⟨rfl, rfl, hsame.body, fun n => ?_⟩
    simp only [Headers.values_remove, Headers.values_insert]
    by_cases hkey : Name.secWebSocketKey = n
    · simp only [hkey, if_true]
    · simp only [hsame.values n (Ne.symm hkey)]

end Upgrade

/-! ## Masks -/

/-- The empty value. -/
def Header.Value.empty : Value := ⟨[], rfl⟩

namespace Headers

/-- Empties the values of a name. -/
def mask (name : Name) (h : Headers) : Headers :=
  ⟨h.entries.map fun e => if e.1 = name then (e.1, Value.empty) else e⟩

variable (name : Name) {h : Headers}

theorem mask_mask : (h.mask name).mask name = h.mask name := by
  simp only [mask, List.map_map, Headers.mk.injEq]
  apply List.map_congr_left
  intro e _
  by_cases he : e.1 = name <;> simp [he]

theorem contains_mask (n : Name) : (h.mask name).contains n = h.contains n := by
  simp only [contains, mask, List.any_map]
  congr 1
  funext e
  by_cases he : e.1 = name <;> simp [he]

theorem mask_remove (n : Name) : (h.remove n).mask name = (h.mask name).remove n := by
  simp only [mask, remove, List.filter_map, Headers.mk.injEq]
  congr 1
  apply List.filter_congr
  intro e _
  by_cases he : e.1 = name <;> simp [he]

theorem mask_append (n : Name) (v : Value) :
    (h.append n v).mask name = (h.mask name).append n (if n = name then Value.empty else v) := by
  simp only [mask, append, List.map_append, List.map_cons, List.map_nil, Headers.mk.injEq]
  by_cases hn : n = name <;> simp [hn]

/-- An edit of masked header fields comes to the same under the mask. -/
theorem mask_apply (e : Edit) : (e.apply h).mask name = (e.apply (h.mask name)).mask name := by
  cases e with
  | set n v => simp only [Edit.apply, insert, mask_append, mask_remove, mask_mask]
  | append n v => simp only [Edit.apply, mask_append, mask_mask]
  | remove n => simp only [Edit.apply, mask_remove, mask_mask]

/-- Which value the name is given does not show under the mask. -/
theorem mask_set (v v' : Value) : (h.insert name v).mask name = (h.insert name v').mask name := by
  simp only [insert, mask_append, if_true]

end Headers

/-- Empties the values of Sec-WebSocket-Accept, staged or committed. -/
def Recorder.mask (r : Recorder) : Recorder :=
  { r with
    headers := r.headers.mask Name.secWebSocketAccept
    commits := r.commits.map fun c => (c.1, c.2.mask Name.secWebSocketAccept) }

namespace Step

variable {σ τ α : Type}

theorem of_map_eq {f : σ → τ} {a b : Step σ α} (h : a.map f = b.map f) :
    (∀ reply s, a = .replied reply s → ∃ t, b = .replied reply t ∧ f s = f t) ∧
      ∀ s, a = .waits s → ∃ t, b = .waits t ∧ f s = f t := by
  cases b with
  | replied reply' t =>
    constructor
    · rintro reply s rfl
      injection h with hreply hstate
      exact ⟨t, by rw [hreply], hstate⟩
    · rintro s rfl
      cases h
  | waits t =>
    constructor
    · rintro reply s rfl
      cases h
    · rintro s rfl
      injection h with hstate
      exact ⟨t, rfl, hstate⟩

end Step

namespace Recorder

theorem mask_mask (r : Recorder) : r.mask.mask = r.mask := by
  simp only [mask, Headers.mask_mask, List.map_map]
  congr 1
  apply List.map_congr_left
  intro c _
  simp only [Function.comp_apply, Headers.mask_mask]

theorem write_mask (data : Bytes) (r : Recorder) : r.mask.write data = (r.write data).map mask := by
  simp only [write]
  rw [show r.mask.failures = r.failures from rfl, show r.mask.writeLimit = r.writeLimit from rfl]
  split <;> rfl

theorem flush_mask (r : Recorder) : r.mask.flush = r.flush.map mask := by
  simp only [flush]
  rw [show r.mask.failures = r.failures from rfl]
  split <;> rfl

theorem hijack_mask (r : Recorder) : r.mask.hijack = r.hijack.map mask := by
  simp only [hijack]
  rw [show r.mask.failures = r.failures from rfl]
  split <;> rfl

theorem transmit_mask (data : Bytes) (r : Recorder) :
    r.mask.transmit data = ((r.transmit data).1, (r.transmit data).2.mask) := by
  simp only [transmit]
  rw [show r.mask.peer = r.peer from rfl]
  split <;> rfl

/-- Nothing that a recorder answers depends on what the mask covers, unless the header fields are
read. -/
theorem answer_mask (network : Network) (r : Recorder) {effect : Effect}
    (hblind : effect ≠ .call .headers) :
    (World.answer ⟨channel, network⟩ effect r.mask).map mask =
      (World.answer ⟨channel, network⟩ effect r).map mask := by
  have hmasked : mask ∘ mask = mask := funext mask_mask
  cases effect with
  | call c =>
    cases c with
    | headers => exact absurd rfl hblind
    | edit e =>
      have hpresent := Headers.contains_mask .secWebSocketAccept e.name (h := r.headers)
      have hedit := Headers.mask_apply .secWebSocketAccept e (h := r.headers)
      simp [World.answer, Channel.perform, channel, Step.map, mask, hpresent, hedit,
        Headers.mask_mask]
    | writeStatus status =>
      simp [World.answer, Channel.perform, channel, Step.map, mask, Headers.mask_mask]
    | write data =>
      have hwrite := r.write_mask data
      simp only [World.answer, Channel.perform, channel, hwrite, Step.map_map, hmasked]
    | capabilities => simp only [World.answer, Channel.perform, channel, Step.map, mask_mask]; rfl
    | flush => simp only [World.answer, Channel.perform, channel, flush_mask, Step.map_map, hmasked]
    | hijack => simp only [World.answer, Channel.perform, channel, hijack_mask, Step.map_map, hmasked]
  | transmit data =>
    simp only [World.answer, channel, transmit_mask, Step.map, mask_mask]
  | relay connection =>
    simp only [World.answer, channel, transmit_mask]
    split <;> simp only [Step.map, mask_mask]
  | _ => simp only [World.answer, Step.map, mask_mask]

theorem answer_of_mask_eq (network : Network) {r r' : Recorder} (hr : r.mask = r'.mask)
    {effect : Effect} (hblind : effect ≠ .call .headers) :
    (World.answer ⟨channel, network⟩ effect r).map mask =
      (World.answer ⟨channel, network⟩ effect r').map mask := by
  rw [← answer_mask network r hblind, hr, answer_mask network r' hblind]

/-- Which value the token is given does not show under the mask. -/
theorem answer_token (network : Network) {r r' : Recorder} (hr : r.mask = r'.mask)
    (v v' : Value) : ∃ reply t t',
      World.answer ⟨channel, network⟩ (.call (.edit (.set Name.secWebSocketAccept v))) r =
        .replied reply t ∧
      World.answer ⟨channel, network⟩ (.call (.edit (.set Name.secWebSocketAccept v'))) r' =
        .replied reply t' ∧ t.mask = t'.mask := by
  have hheaders : r.headers.mask .secWebSocketAccept = r'.headers.mask .secWebSocketAccept :=
    congrArg Recorder.headers hr
  have hpresent : r.headers.contains .secWebSocketAccept =
      r'.headers.contains .secWebSocketAccept := by
    rw [← Headers.contains_mask .secWebSocketAccept, hheaders, Headers.contains_mask]
  have hset : (r.headers.insert .secWebSocketAccept v).mask .secWebSocketAccept =
      (r'.headers.insert .secWebSocketAccept v').mask .secWebSocketAccept := by
    have hedit := Headers.mask_apply .secWebSocketAccept (.set .secWebSocketAccept v) (h := r.headers)
    have hedit' := Headers.mask_apply .secWebSocketAccept (.set .secWebSocketAccept v')
      (h := r'.headers)
    rw [hheaders] at hedit
    exact hedit.trans ((Headers.mask_set _ v v').trans hedit'.symm)
  have hstate : { r.mask with
        headers := (r.headers.insert .secWebSocketAccept v).mask .secWebSocketAccept } =
      { r'.mask with
        headers := (r'.headers.insert .secWebSocketAccept v').mask .secWebSocketAccept } := by
    rw [hr, hset]
  refine ⟨r.headers.contains .secWebSocketAccept,
    { r with headers := r.headers.insert .secWebSocketAccept v },
    { r' with headers := r'.headers.insert .secWebSocketAccept v' }, rfl, ?_, hstate⟩
  rw [hpresent]
  rfl

end Recorder

/-! ## Programs -/

/-- Two programs that read no header fields and do the same but for the values that they give
Sec-WebSocket-Accept. -/
inductive Program.SameButToken {α : Type} : Program α → Program α → Prop
  | returns {value} : SameButToken (.returns value) (.returns value)
  | panics : SameButToken .panics .panics
  | stalls : SameButToken .stalls .stalls
  | perform {effect next next'} : effect ≠ .call .headers →
      (∀ reply, SameButToken (next reply) (next' reply)) →
      SameButToken (.perform effect next) (.perform effect next')
  | token {v v' next next'} : (∀ reply, SameButToken (next reply) (next' reply)) →
      SameButToken (.perform (.call (.edit (.set Name.secWebSocketAccept v))) next)
        (.perform (.call (.edit (.set Name.secWebSocketAccept v'))) next')

namespace Program.SameButToken

variable {α β : Type} {q q' : Program α}

theorem bind {f : α → Program β} (h : q.SameButToken q')
    (hf : ∀ value, (f value).SameButToken (f value)) : (q.bind f).SameButToken (q'.bind f) := by
  induction h with
  | returns => exact hf _
  | panics => exact .panics
  | stalls => exact .stalls
  | perform hblind _ ih => exact .perform hblind ih
  | token _ ih => exact .token ih

/-- What a recorder keeps of two such programs is the same under the mask. -/
theorem run (network : Network) (h : q.SameButToken q') : ∀ {r r' : Recorder}, r.mask = r'.mask →
    (q.run ⟨Recorder.channel, network⟩ r).outcome =
        (q'.run ⟨Recorder.channel, network⟩ r').outcome ∧
      (q.run ⟨Recorder.channel, network⟩ r).state.mask =
        (q'.run ⟨Recorder.channel, network⟩ r').state.mask := by
  induction h with
  | returns | panics | stalls => exact fun hr => ⟨rfl, hr⟩
  | @perform effect next next' hblind _ ih =>
    intro r r' hr
    obtain ⟨hreplied, hwaits⟩ := Step.of_map_eq (Recorder.answer_of_mask_eq network hr hblind)
    cases ha : World.answer ⟨Recorder.channel, network⟩ effect r with
    | waits t =>
      obtain ⟨t', ha', ht⟩ := hwaits t ha
      rw [run_perform_waits _ ha, run_perform_waits _ ha']
      exact ⟨rfl, ht⟩
    | replied reply t =>
      obtain ⟨t', ha', ht⟩ := hreplied reply t ha
      rw [run_perform_replied _ ha, run_perform_replied _ ha']
      exact ih reply ht
  | @token v v' next next' _ ih =>
    intro r r' hr
    obtain ⟨reply, t, t', ha, ha', ht⟩ := Recorder.answer_token network hr v v'
    rw [run_perform_replied _ ha, run_perform_replied _ ha']
    exact ih reply ht

end Program.SameButToken

/-- A program that reads no header fields does the same behind any two switches but for the token
of each. -/
theorem ProtocolSwitch.sameButToken_apply {α : Type} (p p' : ProtocolSwitch) {q : Program α}
    (h : q.Only (· ≠ .call .headers)) : ∀ state, (p.apply state q).SameButToken (p'.apply state q) := by
  induction q with
  | returns value => exact fun _ => .returns
  | panics => exact fun _ => .panics
  | stalls => exact fun _ => .stalls
  | perform effect next ih =>
    intro state
    have hrest := fun reply state => ih reply (h.2 reply) state
    by_cases hturn : state = .waiting ∧ effect = .call (.writeStatus .ok)
    · obtain ⟨rfl, rfl⟩ := hturn
      have hcommit : (Program.perform (.call (.writeStatus .switchingProtocols)) fun reply =>
          p.apply .switched (next reply)).SameButToken
            (.perform (.call (.writeStatus .switchingProtocols)) fun reply =>
              p'.apply .switched (next reply)) := .perform (by simp) fun reply => hrest reply _
      rw [apply_perform_ready, apply_perform_ready, edits_eq, edits_eq]
      -- the third edit is the only one that the switches make differently
      refine .perform (by simp) fun _ => .perform (by simp) fun _ => .token fun _ => ?_
      exact .perform (by simp) fun _ => hcommit
    · have hthrough : state = .waiting → effect ≠ .call (.writeStatus .ok) :=
        fun hs he => hturn ⟨hs, he⟩
      rw [apply_perform p _ hthrough, apply_perform p' _ hthrough]
      exact .perform h.1 fun reply => hrest reply _

/-- A program that asks for a commit of 200 before it commits or takes over anything. -/
def Program.Readies {σ α : Type} (w : World σ) (q : Program α) (s : σ) : Prop :=
  ∃ asked t next, q.Asks asked (.perform (.call (.writeStatus .ok)) next) ∧ w.Answers s asked t ∧
    ProtocolSwitch.State.after .waiting asked = .waiting

namespace ProtocolSwitch

theorem readies_of_turns {σ α : Type} {w : World σ} {q : Program α} {s : σ}
    {before after : List Exchanged} (h : Turns (q.run w s).trace before after) : q.Readies w s := by
  obtain ⟨htrace, hquiet⟩ := h
  obtain ⟨rest, u, hasks, hanswers, -⟩ := q.asks_run w s
  rw [htrace] at hasks hanswers
  obtain ⟨mid, hbefore, hmid⟩ := hasks.split
  obtain ⟨t, ht, -⟩ := hanswers.split
  cases hmid with
  | cons _ => exact ⟨before, t, _, hbefore, ht, State.after_quiet hquiet⟩

end ProtocolSwitch

/-! ## Handlers given as data -/

/-- An action that reads staged header fields. -/
def Action.Reads : Action → Prop
  | .get _ | .headers => True
  | _ => False

theorem Action.blind_program {action : Action} (h : ¬ action.Reads) :
    action.program.Only (· ≠ .call .headers) := by
  cases action with
  | get n => exact absurd trivial h
  | headers => exact absurd trivial h
  | hijack send =>
    refine ⟨by simp, fun reply => ?_⟩
    cases reply with
    | error error => exact trivial
    | ok hijacked =>
      cases send with
      | none => exact trivial
      | some data => exact ⟨by simp, fun _ => trivial⟩
  | _ => exact ⟨by simp, fun _ => trivial⟩

theorem Script.blind_act (place : Place) (propagates : Bool) {actions : List Action}
    (h : ∀ action ∈ actions, ¬ action.Reads) :
    (act place propagates actions).Only (· ≠ .call .headers) := by
  induction actions with
  | nil => exact trivial
  | cons action rest ih =>
    have hfirst := Action.blind_program (h action (List.mem_cons_self ..))
    have hrest := ih fun action' hmem => h action' (List.mem_cons_of_mem _ hmem)
    refine hfirst.bind fun answer => ⟨by simp, fun _ => ?_⟩
    simp only [Program.bind]
    split
    · exact trivial
    · exact hrest

namespace Tunnel

/-- A program that never asks for 200 while the switch waits does the same behind any switch. -/
theorem run_behind_of_not_readies {σ α : Type} (p p' : ProtocolSwitch) {w : World σ}
    {q : Program α} {s : σ} (h : ¬ q.Readies w s) :
    (behind p q).run w s = (behind p' q).run w s := by
  have hturns : ∀ before after, ¬ ProtocolSwitch.Turns (q.run w s).trace before after :=
    fun _ _ hturns => h (ProtocolSwitch.readies_of_turns hturns)
  have hrun := ProtocolSwitch.run_apply_of_not_turns p w q s hturns
  have hrun' := ProtocolSwitch.run_apply_of_not_turns p' w q s hturns
  rw [behind, behind, Program.run_bind_returns, Program.run_bind_returns, hrun, hrun']

theorem sameButToken_behind {α : Type} (p p' : ProtocolSwitch) {q : Program α}
    (h : q.Only (· ≠ .call .headers)) : (behind p q).SameButToken (behind p' q) :=
  (ProtocolSwitch.sameButToken_apply p p' h .waiting).bind fun _ => .returns

/-- Two requests that differ in their keys only are refused with the same error, whatever comes
after the tunnel, or are handed on as the same request behind the switches for the keys. -/
theorem meets_alike {σ : Type} (w : World σ) (s : σ) (a₁ a₂ : Base64.Alphabet) {r₁ r₂ : Request}
    {u₁ u₂ : Upgrade} (hsame : r₁.SameBut Name.secWebSocketKey r₂)
    (h₁ : Upgrade.detect r₁ = some u₁) (h₂ : Upgrade.detect r₂ = some u₂) :
    (∃ error trace, ∀ handler : Handler,
        (tunnel a₁ handler r₁).run w s = ⟨.returned (.error error), s, trace⟩ ∧
        (tunnel a₂ handler r₂).run w s = ⟨.returned (.error error), s, trace⟩) ∨
      ∃ connect₁ connect₂ trace, connect₁.Same connect₂ ∧ ∀ handler : Handler,
        (tunnel a₁ handler r₁).run w s =
          ((behind ⟨u₁.key, a₁⟩ (handler connect₁)).run w s).after trace ∧
        (tunnel a₂ handler r₂).run w s =
          ((behind ⟨u₂.key, a₂⟩ (handler connect₂)).run w s).after trace := by
  have hhost := Upgrade.host_eq_of_sameBut hsame h₁ h₂
  have htext : u₁.hostText = u₂.hostText := by rw [Upgrade.hostText, Upgrade.hostText, hhost]
  have htargets : u₁.target? = u₂.target? := by rw [Upgrade.target?, Upgrade.target?, htext]
  have htunnel₁ : ∀ handler, tunnel a₁ handler r₁ = bridge a₁ handler u₁ r₁ :=
    fun handler => by simp only [tunnel, h₁]
  have htunnel₂ : ∀ handler, tunnel a₂ handler r₂ = bridge a₂ handler u₂ r₂ :=
    fun handler => by simp only [tunnel, h₂]
  cases htarget : u₂.target? with
  | none =>
    refine .inl ⟨.invalidHost u₂.hostText, [], fun handler => ?_⟩
    rw [htunnel₁, htunnel₂, bridge_of_no_target a₁ handler (htargets.trans htarget) r₁,
      bridge_of_no_target a₂ handler htarget r₂, htext]
    exact ⟨rfl, rfl⟩
  | some uri =>
    obtain ⟨connect₁, hretarget₁, -⟩ := Upgrade.retarget_of_target (htargets.trans htarget) r₁
    obtain ⟨connect₂, hretarget₂, -⟩ := Upgrade.retarget_of_target htarget r₂
    have hconnect := Upgrade.retarget_same hsame hhost hretarget₁ hretarget₂
    let capabilities := w.channel.capabilities s
    have ha : w.answer (.call .capabilities) s = .replied capabilities s := rfl
    have hprobed : ∀ handler : Handler,
        (tunnel a₁ handler r₁).run w s =
          ((probed ⟨u₁.key, a₁⟩ (handler connect₁) capabilities).run w s).after
            [⟨.call .capabilities, capabilities⟩] ∧
        (tunnel a₂ handler r₂).run w s =
          ((probed ⟨u₂.key, a₂⟩ (handler connect₂) capabilities).run w s).after
            [⟨.call .capabilities, capabilities⟩] := by
      intro handler
      rw [htunnel₁, htunnel₂, bridge_of_retarget a₁ handler hretarget₁,
        bridge_of_retarget a₂ handler hretarget₂]
      exact ⟨Program.run_perform_replied _ ha, Program.run_perform_replied _ ha⟩
    cases hmissing : capabilities.missing with
    | some capability =>
      simp only [probed, hmissing] at hprobed
      exact .inl ⟨_, _, hprobed⟩
    | none =>
      simp only [probed, hmissing] at hprobed
      exact .inr ⟨connect₁, connect₂, _, hconnect, hprobed⟩

/-- **The key of a client reaches the accept token and nothing else.** Two requests for a WebSocket
that differ in their keys only are refused with the same error before a handler is called, or come to
any handler as the same request, behind the switches for their keys. A handler that does the same for
the same request and reads no header fields back then ends alike on both sides, and leaves recorders
that differ in nothing but values of Sec-WebSocket-Accept; and unless it asks for 200 before anything
else was committed or taken over, nothing differs at all. -/
theorem key_reaches_token_only (network : Network) (a₁ a₂ : Base64.Alphabet) {next : Handler}
    {r₁ r₂ : Request} {u₁ u₂ : Upgrade} (hsame : r₁.SameBut Name.secWebSocketKey r₂)
    (h₁ : Upgrade.detect r₁ = some u₁) (h₂ : Upgrade.detect r₂ = some u₂)
    (hnext : ∀ r r' : Request, r.Same r' → next r = next r')
    (hblind : ∀ r, (next r).Only (· ≠ .call .headers)) (s : Recorder) :
    let w : World Recorder := ⟨Recorder.channel, network⟩
    let run₁ := (tunnel a₁ next r₁).run w s
    let run₂ := (tunnel a₂ next r₂).run w s
    run₁.outcome = run₂.outcome ∧ run₁.state.mask = run₂.state.mask ∧
      ((∃ error trace, ∀ handler : Handler,
          (tunnel a₁ handler r₁).run w s = ⟨.returned (.error error), s, trace⟩ ∧
          (tunnel a₂ handler r₂).run w s = ⟨.returned (.error error), s, trace⟩) ∨
        ∃ connect₁ connect₂ trace, connect₁.Same connect₂ ∧
          (∀ handler : Handler,
            (tunnel a₁ handler r₁).run w s =
              ((behind ⟨u₁.key, a₁⟩ (handler connect₁)).run w s).after trace ∧
            (tunnel a₂ handler r₂).run w s =
              ((behind ⟨u₂.key, a₂⟩ (handler connect₂)).run w s).after trace) ∧
          (¬ (next connect₁).Readies w s → run₁ = run₂)) := by
  intro w run₁ run₂
  rcases meets_alike w s a₁ a₂ hsame h₁ h₂ with
    ⟨error, trace, hrefused⟩ | ⟨connect₁, connect₂, trace, hconnect, hhanded⟩
  · obtain ⟨hrun₁, hrun₂⟩ := hrefused next
    have hrun : run₁ = run₂ := hrun₁.trans hrun₂.symm
    exact ⟨by rw [hrun], by rw [hrun], .inl ⟨error, trace, hrefused⟩⟩
  · obtain ⟨hrun₁, hrun₂⟩ := hhanded next
    rw [← hnext connect₁ connect₂ hconnect] at hrun₂
    have htokens := sameButToken_behind ⟨u₁.key, a₁⟩ ⟨u₂.key, a₂⟩ (hblind connect₁)
    obtain ⟨houtcome, hstate⟩ := htokens.run network (rfl : s.mask = s.mask)
    refine ⟨?_, ?_, .inr ⟨connect₁, connect₂, trace, hconnect, hhanded, fun hready => ?_⟩⟩
    · exact (congrArg Run.outcome hrun₁).trans
        (houtcome.trans (congrArg Run.outcome hrun₂).symm)
    · exact (congrArg (·.state.mask) hrun₁).trans
        (hstate.trans (congrArg (·.state.mask) hrun₂).symm)
    · have hbehind := run_behind_of_not_readies ⟨u₁.key, a₁⟩ ⟨u₂.key, a₂⟩ hready
      exact hrun₁.trans ((congrArg (Run.after trace) hbehind).trans hrun₂.symm)

/-- A request for a WebSocket with this key. -/
def requestOfKey (key : Value) : Request where
  headers := ⟨[(.upgrade, .websocket), (.secWebSocketKey, key), (.connection, .upgrade),
    (.xConnectHost, ⟨utf8 "backend.internal:9000", by decide⟩)]⟩

theorem sameBut_requestOfKey (key key' : Value) :
    (requestOfKey key).SameBut Name.secWebSocketKey (requestOfKey key') := by
  refine ⟨rfl, rfl, rfl, fun n hn => ?_⟩
  simp only [requestOfKey, Headers.values, List.filterMap_cons, Ne.symm hn, if_false]

/-- A handler that adds values to an accept token that it does not see, before and after a commit. -/
def repeatsToken : Handler := fun _ => Script.act .handler false
  [.append .secWebSocketAccept .websocket, .status .ok, .append .secWebSocketAccept .upgrade,
    .status .noContent, .hijack none]

theorem key_hidden_from_repeatsToken :
    ∃ u₁ u₂ : Upgrade, u₁.key ≠ u₂.key ∧
      Upgrade.detect (requestOfKey ⟨utf8 "dGhlIHNhbXBsZSBub25jZQ==", by decide⟩) = some u₁ ∧
      Upgrade.detect (requestOfKey ⟨utf8 "x3JJHMbDL1EzLkh9GBhXDw==", by decide⟩) = some u₂ ∧
      (∀ r, (repeatsToken r).Only (· ≠ .call .headers)) ∧
      ((tunnel .standard repeatsToken
          (requestOfKey ⟨utf8 "dGhlIHNhbXBsZSBub25jZQ==", by decide⟩)).run
        ⟨Recorder.channel, silent⟩ {}).state.mask =
      ((tunnel .urlSafe repeatsToken
          (requestOfKey ⟨utf8 "x3JJHMbDL1EzLkh9GBhXDw==", by decide⟩)).run
        ⟨Recorder.channel, silent⟩ {}).state.mask := by
  have hsame := sameBut_requestOfKey ⟨utf8 "dGhlIHNhbXBsZSBub25jZQ==", by decide⟩
    ⟨utf8 "x3JJHMbDL1EzLkh9GBhXDw==", by decide⟩
  have h₁ : Upgrade.detect (requestOfKey ⟨utf8 "dGhlIHNhbXBsZSBub25jZQ==", by decide⟩) =
    some ⟨"dGhlIHNhbXBsZSBub25jZQ==", ⟨utf8 "backend.internal:9000", by decide⟩⟩ := by decide
  have h₂ : Upgrade.detect (requestOfKey ⟨utf8 "x3JJHMbDL1EzLkh9GBhXDw==", by decide⟩) =
    some ⟨"x3JJHMbDL1EzLkh9GBhXDw==", ⟨utf8 "backend.internal:9000", by decide⟩⟩ := by decide
  have hblind : ∀ r, (repeatsToken r).Only (· ≠ .call .headers) :=
    fun _ => Script.blind_act .handler false (by simp [Action.Reads])
  obtain ⟨-, hstate, -⟩ := key_reaches_token_only silent .standard .urlSafe hsame h₁ h₂
    (fun _ _ _ => rfl) hblind {}
  exact ⟨_, _, by decide, h₁, h₂, hblind, hstate⟩

end Tunnel

end UpgradeBridge
