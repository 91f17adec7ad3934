/-
Pipelines with tunnels in them. The request that a tunnel hands on asks for no
WebSocket, so that a second tunnel right after it never does anything; and a
tunnel does nothing for any request that asks for none.

The first is an equation between handlers. The second is about single runs:
which requests come to the place of the tunnel is noted by `watch` in a run
without it. For this to mean anything the stages in front must not look at the
stage after them otherwise than by serving requests through it, which `Uniform`
says: what they make of two handlers is alike wherever the handlers are.
-/
import UpgradeBridge.Channel.Minimal
import UpgradeBridge.Proofs.Routes
import UpgradeBridge.Script

namespace UpgradeBridge

/-! ## Tunnels in a row -/

theorem tunnel_of_not_detect (alphabet : Base64.Alphabet) (next : Handler) {r : Request}
    (h : Upgrade.detect r = none) : tunnel alphabet next r = next r := by
  simp only [tunnel, h]

theorem tunnel_tunnel (a b : Base64.Alphabet) (next : Handler) :
    tunnel a (tunnel b next) = tunnel a next := by
  funext r
  cases hdetect : Upgrade.detect r with
  | none => rw [tunnel_of_not_detect a _ hdetect, tunnel_of_not_detect a _ hdetect,
      tunnel_of_not_detect b _ hdetect]
  | some u =>
    simp only [tunnel, hdetect]
    cases htarget : u.target? with
    | none => rw [Tunnel.bridge_of_no_target a _ htarget, Tunnel.bridge_of_no_target a _ htarget]
    | some uri =>
      obtain ⟨connect, hretarget, hmethod, -⟩ := Upgrade.retarget_of_target htarget r
      have hrefused := Upgrade.detect_of_connect hmethod
      rw [Tunnel.bridge_of_retarget a _ hretarget, Tunnel.bridge_of_retarget a _ hretarget,
        tunnel_of_not_detect b _ hrefused]

namespace Pipeline

theorem chain_append (before after : List Middleware) (h : Handler) :
    chain (before ++ after) h = chain before (chain after h) := by
  induction before with
  | nil => rfl
  | cons m before ih =>
    rw [List.cons_append, chain, chain, ih]

/-- Of some tunnels in a row the first does what all of them do. -/
theorem chain_tunnels (a : Base64.Alphabet) (bs : List Base64.Alphabet) (h : Handler) :
    chain (tunnel a :: bs.map tunnel) h = tunnel a h := by
  induction bs with
  | nil => rfl
  | cons b bs ih =>
    rw [List.map_cons, chain, chain, tunnel_tunnel]
    exact ih

end Pipeline

/-! ## Stages that use the stage after them by serving requests -/

/-- Notes down which requests come to a place, and hands them on. -/
def watch (place : Place) : Middleware := fun next r =>
  .perform (.note place (.saw r)) fun _ => next r

/-- Two programs and a watched one that go on alike, unless the watched one has noted a request that
is not refused. -/
inductive Program.Alike {α : Type} (place : Place) (refused : Request → Prop) :
    Program α → Program α → Program α → Prop
  | returns {value} : Alike place refused (.returns value) (.returns value) (.returns value)
  | panics : Alike place refused .panics .panics .panics
  | stalls : Alike place refused .stalls .stalls .stalls
  | perform {effect next next₁ next₂} :
      (∀ reply, Alike place refused (next reply) (next₁ reply) (next₂ reply)) →
      Alike place refused (.perform effect next) (.perform effect next₁) (.perform effect next₂)
  | noted {r next q₁ q₂} : (refused r → Alike place refused (next ()) q₁ q₂) →
      Alike place refused (.perform (.note place (.saw r)) next) q₁ q₂

namespace Program.Alike

variable {α β : Type} {place : Place} {refused : Request → Prop}

theorem refl (q : Program α) : Alike place refused q q q := by
  induction q with
  | returns value => exact .returns
  | panics => exact .panics
  | stalls => exact .stalls
  | perform effect next ih => exact .perform ih

theorem bind {q q₁ q₂ : Program α} {f f₁ f₂ : α → Program β} (h : Alike place refused q q₁ q₂)
    (hf : ∀ value, Alike place refused (f value) (f₁ value) (f₂ value)) :
    Alike place refused (q.bind f) (q₁.bind f₁) (q₂.bind f₂) := by
  induction h with
  | returns => exact hf _
  | panics => exact .panics
  | stalls => exact .stalls
  | perform _ ih => exact .perform ih
  | noted _ ih => exact .noted ih

theorem run_eq {σ : Type} {w : World σ} {q q₁ q₂ : Program α} (h : Alike place refused q q₁ q₂) :
    ∀ {s}, (∀ r, (place, .saw r) ∈ (q.run w s).notes → refused r) → q₁.run w s = q₂.run w s := by
  induction h with
  | returns | panics | stalls => exact fun _ => rfl
  | @perform effect next next₁ next₂ _ ih =>
    intro s hnotes
    cases ha : w.answer effect s with
    | waits t => rw [run_perform_waits _ ha, run_perform_waits _ ha]
    | replied reply t =>
      rw [run_perform_replied _ ha] at hnotes
      have hrest : (next₁ reply).run w t = (next₂ reply).run w t := by
        refine ih reply fun r hr => hnotes r ?_
        rw [Run.notes, Run.after_trace, List.filterMap_append]
        exact List.mem_append_right _ hr
      rw [run_perform_replied _ ha, run_perform_replied _ ha, hrest]
  | @noted r next q₁ q₂ _ ih =>
    intro s hnotes
    have ha : w.answer (.note place (.saw r)) s = .replied () s := rfl
    rw [run_perform_replied _ ha] at hnotes
    have hrefused : refused r := hnotes r (List.mem_cons_self ..)
    exact ih hrefused fun r' hr' => hnotes r' (List.mem_cons_of_mem _ hr')

theorem stage {q q₁ q₂ : Program α} (h : Alike place refused q q₁ q₂) (edits : List Headers.Edit) :
    Alike place refused (ProtocolSwitch.stage edits q) (ProtocolSwitch.stage edits q₁)
      (ProtocolSwitch.stage edits q₂) := by
  induction edits with
  | nil => exact h
  | cons edit edits ih => exact .perform fun _ => ih

theorem apply {q q₁ q₂ : Program α} (h : Alike place refused q q₁ q₂) (p : ProtocolSwitch) :
    ∀ state, Alike place refused (p.apply state q) (p.apply state q₁) (p.apply state q₂) := by
  induction h with
  | returns => exact fun _ => .returns
  | panics => exact fun _ => .panics
  | stalls => exact fun _ => .stalls
  | @perform effect next next₁ next₂ _ ih =>
    intro state
    by_cases hturn : state = .waiting ∧ effect = .call (.writeStatus .ok)
    · obtain ⟨rfl, rfl⟩ := hturn
      rw [p.apply_perform_ready, p.apply_perform_ready, p.apply_perform_ready]
      refine stage ?_ p.edits
      exact .perform fun reply => ih reply .switched
    · have hthrough : state = .waiting → effect ≠ .call (.writeStatus .ok) :=
        fun hs he => hturn ⟨hs, he⟩
      rw [p.apply_perform _ hthrough, p.apply_perform _ hthrough, p.apply_perform _ hthrough]
      exact .perform fun reply => ih reply _
  | @noted r next q₁ q₂ _ ih =>
    intro state
    have hstate : state.next ⟨.note place (.saw r), ()⟩ = state := by cases state <;> rfl
    rw [p.apply_perform next (fun _ he => by cases he)]
    refine .noted fun hrefused => ?_
    rw [hstate]
    exact ih hrefused state

end Program.Alike

/-- Whatever it is that differs between two handlers, the stage makes programs of them that differ
nowhere else. -/
def Uniform (m : Middleware) : Prop :=
  ∀ (place : Place) (refused : Request → Prop) (next next₁ next₂ : Handler),
    (∀ r, Program.Alike place refused (next r) (next₁ r) (next₂ r)) →
      ∀ r, Program.Alike place refused (m next r) (m next₁ r) (m next₂ r)

theorem uniform_tunnel (a : Base64.Alphabet) : Uniform (tunnel a) := by
  intro place refused next next₁ next₂ hnext r
  cases hdetect : Upgrade.detect r with
  | none =>
    rw [tunnel_of_not_detect a next hdetect, tunnel_of_not_detect a next₁ hdetect,
      tunnel_of_not_detect a next₂ hdetect]
    exact hnext r
  | some u =>
    simp only [tunnel, hdetect]
    cases htarget : u.target? with
    | none =>
      simp only [Tunnel.bridge_of_no_target a _ htarget]
      exact .returns
    | some uri =>
      obtain ⟨connect, hretarget, -⟩ := Upgrade.retarget_of_target htarget r
      simp only [Tunnel.bridge_of_retarget a _ hretarget]
      refine .perform fun capabilities => ?_
      unfold Tunnel.probed
      split
      · exact .returns
      · exact ((hnext connect).apply _ .waiting).bind fun _ => .returns

theorem Script.uniform_middleware (s : Script) (at' : Place) : Uniform (s.middleware at') := by
  intro place refused next next₁ next₂ hnext r
  refine (Program.Alike.refl (s.opening at' r)).bind fun opened => ?_
  cases opened with
  | error error => exact .returns
  | ok r =>
    simp only
    split
    · refine (hnext r).bind fun outcome => .perform fun _ => ?_
      exact Program.Alike.refl _
    · exact Program.Alike.refl _

namespace Pipeline

theorem alike_chain {place : Place} {refused : Request → Prop} {next next₁ next₂ : Handler}
    (hnext : ∀ r, Program.Alike place refused (next r) (next₁ r) (next₂ r))
    {before : List Middleware} (hbefore : ∀ m ∈ before, Uniform m) : ∀ r,
    Program.Alike place refused (chain before next r) (chain before next₁ r)
      (chain before next₂ r) := by
  induction before with
  | nil => exact hnext
  | cons m before ih =>
    have hrest := ih fun m' hm' => hbefore m' (List.mem_cons_of_mem _ hm')
    exact hbefore m (List.mem_cons_self ..) _ _ _ _ _ hrest

/-- **A tunnel does nothing where another one did its work, or where there is none to do.** Of some
tunnels in a row all but the first may go: the pipeline serves every request by the same program. And
a tunnel at any place may go for a run in which every request that comes to that place, as a watch
there would note it, asks for no WebSocket: the run is the same in all, whatever the channel is able
to do. -/
theorem tunnels_redundant (before after : List Middleware) (h : Handler) (a : Base64.Alphabet) :
    (∀ bs : List Base64.Alphabet,
      serve { middleware := before ++ tunnel a :: bs.map tunnel ++ after, handler := h } =
        serve { middleware := before ++ tunnel a :: after, handler := h }) ∧
    ∀ {σ : Type} (w : World σ) (s : σ) (r : Request) (place : Place),
      (∀ m ∈ before, Uniform m) →
      (∀ r', (place, .saw r') ∈ ((serve { middleware := before ++ watch place :: after, handler := h }
        r).run w s).notes → Upgrade.detect r' = none) →
      (serve { middleware := before ++ tunnel a :: after, handler := h } r).run w s =
        (serve { middleware := before ++ after, handler := h } r).run w s := by
  refine ⟨fun bs => ?_, fun w s r place hbefore hnotes => ?_⟩
  · simp only [serve, List.append_assoc, List.cons_append, chain_append]
    have hrow := chain_tunnels a bs (chain after h)
    rw [chain] at hrow
    rw [chain, chain, chain_append, hrow]
  · simp only [serve, chain_append] at hnotes ⊢
    have hnext : ∀ r', Program.Alike place (Upgrade.detect · = none) (watch place (chain after h) r')
        (tunnel a (chain after h) r') (chain after h r') := by
      intro r'
      refine .noted fun hrefused => ?_
      rw [tunnel_of_not_detect a _ hrefused]
      exact Program.Alike.refl _
    exact (alike_chain hnext hbefore r).run_eq hnotes

/-- A request for a WebSocket. -/
def upgradeRequest : Request where
  headers := ⟨[(.upgrade, .websocket), (.connection, .upgrade),
    (.secWebSocketKey, ⟨utf8 "AQIDBAUGBwgJCgsMDQ4PEA==", by decide⟩),
    (.xConnectHost, ⟨utf8 "origin.internal:8443", by decide⟩)]⟩

/-- A stage that takes from requests what asks for an upgrade. -/
def strip : Script := { sees := false, edit := { remove := [.upgrade] } }

/-- Behind such a stage a tunnel may go, also for a request that asks for a WebSocket. -/
theorem tunnel_redundant_after_strip :
    let w : World Minimal := ⟨Minimal.channel, ⟨fun _ _ => .timedOut, fun _ => .ok (), fun _ => none⟩⟩
    Upgrade.detect upgradeRequest ≠ none ∧ Uniform (strip.middleware (.stage 0)) ∧
      (serve ⟨[strip.middleware (.stage 0), tunnel .standard], Connect.serve 5000⟩ upgradeRequest).run
          w {} =
        (serve ⟨[strip.middleware (.stage 0)], Connect.serve 5000⟩ upgradeRequest).run w {} := by
  intro w
  have huniform := strip.uniform_middleware (.stage 0)
  have hnotes : ((serve ⟨[strip.middleware (.stage 0), watch (.stage 1)], Connect.serve 5000⟩
      upgradeRequest).run w {}).notes =
        [(.stage 1, .saw (strip.edit.apply upgradeRequest)), (.stage 0, .next (.ok ()))] := rfl
  refine ⟨by decide, huniform, ?_⟩
  refine (tunnels_redundant [strip.middleware (.stage 0)] [] (Connect.serve 5000) .standard).2 w {}
    upgradeRequest (.stage 1) (by simpa using huniform) fun r hr => ?_
  have hmem : (Place.stage 1, Note.saw r) ∈
      [(.stage 1, .saw (strip.edit.apply upgradeRequest)), (.stage 0, .next (.ok ()))] := hnotes ▸ hr
  simp only [List.mem_cons, Prod.mk.injEq, Note.saw.injEq, reduceCtorEq, and_false, true_and,
    List.not_mem_nil, or_false] at hmem
  rw [hmem]
  decide

end Pipeline

end UpgradeBridge
