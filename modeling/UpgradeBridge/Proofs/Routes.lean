/-
Where a request goes in the pipeline, told as equations between programs. A
request for a WebSocket whose host names a target comes to the CONNECT handler as
the CONNECT request for that target, behind a protocol switch and after a look at
the capabilities of the channel; any other request comes there as it is.

The CONNECT handler dials at most once, and every error that it names a host in
names the host that it dialled.
-/
import UpgradeBridge.Proofs.ProtocolSwitch
import UpgradeBridge.Server

namespace UpgradeBridge

variable {α : Type}

/-! ## Hosts dialled -/

theorem Run.dialled_after {σ : Type} {asked : List Exchanged}
    (h : ∀ x ∈ asked, ∀ host timeout, x.1 ≠ .dial host timeout) (r : Run σ α) :
    (r.after asked).dialled = r.dialled := by
  rw [dialled, after_trace, List.filterMap_append, List.filterMap_eq_nil_iff.mpr]
  · rfl
  · rintro ⟨effect, reply⟩ hx
    cases effect with
    | dial host timeout => exact absurd rfl (h _ hx host timeout)
    | _ => rfl

theorem Run.dialled_eq_nil {σ : Type} {r : Run σ α}
    (h : ∀ x ∈ r.trace, ∀ host timeout, x.1 ≠ .dial host timeout) : r.dialled = [] := by
  have hafter : r = ({ r with trace := [] } : Run σ α).after r.trace := by simp [after]
  exact (congrArg dialled hafter).trans (dialled_after h _)

/-! ## The CONNECT handler -/

namespace Connect

theorem serve_of_not_connect {r : Request} (timeout : Nat) (hm : r.method ≠ Method.connect) :
    serve timeout r = refuse := by
  simp only [serve, hm, ne_eq, not_false_eq_true, if_true]

theorem serve_of_no_authority {r : Request} (timeout : Nat) (hm : r.method = Method.connect)
    (hhost : r.uri.authority? = none) :
    serve timeout r = .returns (.error (.invalidHost r.uri.text)) := by
  simp only [serve, hm, hhost, ne_eq, not_true, if_false]
  rfl

theorem serve_connect {r : Request} {host : Authority} (timeout : Nat)
    (hm : r.method = Method.connect) (hhost : r.uri.authority? = some host) :
    serve timeout r = .perform (.dial host.text timeout) (proceed host.text) := by
  simp only [serve, hm, hhost, ne_eq, not_true, if_false]
  rfl

theorem refuse_only {allowed : Effect → Prop} (hstatus : allowed (.call (.writeStatus .methodNotAllowed)))
    (hwrite : allowed (.call (.write (utf8 refusal)))) : refuse.Only allowed := by
  refine ⟨hstatus, fun _ => ⟨hwrite, fun written => ?_⟩⟩
  cases written <;> trivial

/-- What a takeover may do. -/
def TakesOver : Effect → Prop
  | .call .flush | .call .hijack | .forward _ | .relay _ => True
  | _ => False

theorem TakesOver.ne {effect other : Effect} (h : TakesOver effect) (hother : ¬ TakesOver other) :
    effect ≠ other := by
  rintro rfl
  exact hother h

theorem takeOver_only (host : String) : (takeOver host).Only TakesOver := by
  refine ⟨trivial, fun flushed => ?_⟩
  cases flushed with
  | error e => trivial
  | ok _ =>
    refine ⟨trivial, fun hijacked => ?_⟩
    cases hijacked with
    | error e => trivial
    | ok hijacked =>
      simp only [Program.bind, Connect.forwardBuffered]
      split
      · exact ⟨trivial, fun _ => trivial⟩
      · refine ⟨trivial, fun forwarded => ?_⟩
        cases forwarded with
        | error e => trivial
        | ok _ => exact ⟨trivial, fun _ => trivial⟩

/-- After the dial nothing else is dialled. -/
theorem proceed_only (host : String) (dialled : Dial) :
    (proceed host dialled).Only fun effect => ∀ host timeout, effect ≠ .dial host timeout := by
  cases dialled with
  | connected => exact ⟨by simp, fun _ => (takeOver_only host).mono fun _ h _ _ => h.ne id⟩
  | _ => trivial

/-- An error that names a host names this one. -/
def Names (host : String) : Except HandlerError Unit → Prop
  | .error (.connectFailed host' _) | .error (.connectTimedOut host') => host' = host
  | _ => True

theorem takeOver_yields (host : String) : (takeOver host).Yields (Names host) := by
  intro flushed
  cases flushed with
  | error e => trivial
  | ok _ =>
    intro hijacked
    cases hijacked with
    | error e => trivial
    | ok hijacked =>
      simp only [Program.bind, Connect.forwardBuffered]
      split
      · exact fun _ => trivial
      · intro forwarded
        cases forwarded with
        | error e => exact rfl
        | ok _ => exact fun _ => trivial

theorem proceed_yields (host : String) (dialled : Dial) :
    (proceed host dialled).Yields (Names host) := by
  cases dialled with
  | failed | timedOut => exact rfl
  | connected => exact fun _ => takeOver_yields host

end Connect

/-! ## The middleware -/

namespace Upgrade

/-- The target that a host names is an authority. -/
theorem target_authority {u : Upgrade} {uri : Uri} (h : u.target? = some uri) :
    ∃ host, uri = .authority host := by
  unfold Upgrade.target? at h
  split at h
  · exact ⟨_, (Option.some.inj h).symm⟩
  · cases h

theorem retarget_of_target {u : Upgrade} {uri : Uri} (h : u.target? = some uri) (r : Request) :
    ∃ connect, u.retarget r = .ok connect ∧ connect.method = Method.connect ∧ connect.uri = uri := by
  rw [retarget, h]
  exact ⟨_, rfl, rfl, rfl⟩

/-- A CONNECT request does not ask for a WebSocket. -/
theorem detect_of_connect {r : Request} (hm : r.method = Method.connect) :
    detect r = none := by
  have hget : r.method ≠ Method.get := by
    rw [hm]
    decide
  simp [detect, hget]

end Upgrade

namespace Tunnel

/-- A program behind a fresh switch, without the state that the switch ends in. -/
def behind (p : ProtocolSwitch) (q : Program α) : Program α :=
  (p.apply .waiting q).bind fun ended => .returns ended.1

theorem behind_only (p : ProtocolSwitch) {allowed : Effect → Prop}
    (hedit : ∀ e, allowed (.call (.edit e)))
    (hswitch : allowed (.call (.writeStatus .switchingProtocols))) {q : Program α}
    (h : q.Only allowed) : (behind p q).Only allowed :=
  (p.only_apply hedit hswitch h .waiting).bind fun _ => trivial

theorem behind_yields (p : ProtocolSwitch) {valid : α → Prop} {q : Program α} (h : q.Yields valid) :
    (behind p q).Yields valid :=
  (p.yields_apply h .waiting).bind fun _ hended => hended

/-- A dial is no matter of the switch. -/
theorem behind_dial (p : ProtocolSwitch) (host : String) (timeout : Nat) (next : Dial → Program α) :
    behind p (.perform (.dial host timeout) next) =
      .perform (.dial host timeout) fun dialled => behind p (next dialled) := rfl

/-- A program behind a fresh switch for a channel with these capabilities, which is given up if one
is missing. -/
def probed (p : ProtocolSwitch) (q : Program (Except HandlerError Unit)) (capabilities : Capabilities) :
    Program (Except HandlerError Unit) :=
  match capabilities.missing with
  | some capability => .returns (.error (.lacksCapability capability))
  | none => behind p q

theorem bridge_of_no_target (alphabet : Base64.Alphabet) (next : Handler) {u : Upgrade}
    (h : u.target? = none) (r : Request) :
    bridge alphabet next u r = .returns (.error (.invalidHost u.hostText)) := by
  simp only [bridge, Upgrade.retarget, h]
  rfl

theorem bridge_of_retarget (alphabet : Base64.Alphabet) (next : Handler) {u : Upgrade}
    {r connect : Request} (h : u.retarget r = .ok connect) :
    bridge alphabet next u r =
      .perform (.call .capabilities) (probed ⟨u.key, alphabet⟩ (next connect)) := by
  simp only [bridge, h, bind, Program.call, Program.bind]
  refine congrArg (Program.perform _) (funext fun capabilities => ?_)
  simp only [probed]
  cases capabilities.missing <;> rfl

end Tunnel

/-! ## The pipeline -/

namespace Server

theorem serve_of_detect {s : Settings} {r : Request} {u : Upgrade}
    (henabled : s.handshake.enabled = true) (hdetect : Upgrade.detect r = some u) :
    (pipelineOf s).serve r = Tunnel.bridge s.handshake.acceptAlphabet
      (Connect.serve (1000 * s.timeouts.connectSecs)) u r := by
  simp only [pipelineOf, henabled, if_true, Pipeline.serve, Pipeline.add, List.nil_append,
    Pipeline.chain, tunnel, hdetect]

theorem serve_of_not_detect {s : Settings} {r : Request}
    (h : s.handshake.enabled = false ∨ Upgrade.detect r = none) :
    (pipelineOf s).serve r = Connect.serve (1000 * s.timeouts.connectSecs) r := by
  cases henabled : s.handshake.enabled with
  | false => simp [pipelineOf, henabled, Pipeline.serve, Pipeline.chain]
  | true =>
    have hdetect : Upgrade.detect r = none := by simpa [henabled] using h
    simp only [pipelineOf, henabled, if_true, Pipeline.serve, Pipeline.add, List.nil_append,
      Pipeline.chain, tunnel, hdetect]

end Server

end UpgradeBridge
