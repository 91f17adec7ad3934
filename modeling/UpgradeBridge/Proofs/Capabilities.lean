/-
Which requests find out about a missing capability by trial. The bridge looks at
the capabilities of the channel before it hands a request on, so that a request
for a WebSocket never does. The CONNECT handler does not look at them: any other
request that it dials a backend for is answered by 200 first, and flushed and
taken over after that, whatever the channel lacks.
-/
import UpgradeBridge.Channel.Stream
import UpgradeBridge.Proofs.Routes

namespace UpgradeBridge

variable {σ : Type}

/-- An effect that takes the capabilities of a tunnel for granted: the use of one, or the commit of a
status that announces the tunnel. -/
def Effect.Presumes : Effect → Prop
  | .call .flush | .call .hijack => True
  | .call (.writeStatus status) => status = .ok ∨ status = .switchingProtocols
  | _ => False

/-- The program takes the capabilities of a tunnel for granted in the course of its run. -/
def Program.Presumes {α : Type} (w : World σ) (q : Program α) (s : σ) : Prop :=
  ∃ effect : Effect, effect.Presumes ∧ q.Reaches w s effect

theorem Program.Only.not_presumes {α : Type} {q : Program α} (h : q.Only (¬ ·.Presumes))
    (w : World σ) (s : σ) : ¬ q.Presumes w s := by
  rintro ⟨effect, hpresumes, hreaches⟩
  exact h.reaches hreaches hpresumes

/-! ## The CONNECT handler -/

namespace Connect

/-- The handler does not look at the capabilities of the channel. -/
theorem serve_only (timeout : Nat) (r : Request) :
    (serve timeout r).Only (· ≠ .call .capabilities) := by
  by_cases hm : r.method = Method.connect
  · cases hhost : r.uri.authority? with
    | none =>
      rw [serve_of_no_authority timeout hm hhost]
      trivial
    | some host =>
      rw [serve_connect timeout hm hhost]
      refine ⟨by simp, fun dialled => ?_⟩
      cases dialled with
      | connected => exact ⟨by simp, fun _ => (takeOver_only host.text).mono fun _ h => h.ne id⟩
      | _ => trivial
  · rw [serve_of_not_connect timeout hm]
    exact refuse_only (by simp) (by simp)

variable {network : Network} {channel : Channel σ} {s : σ}

theorem presumes_proceed {host : String} {dialled : Dial} :
    (proceed host dialled).Presumes ⟨channel, network⟩ s ↔ dialled = .connected := by
  constructor
  · rintro ⟨effect, hpresumes, hreaches⟩
    cases dialled with
    | connected => rfl
    | _ => exact absurd hreaches (Program.not_reaches_returns _)
  · rintro rfl
    exact ⟨.call (.writeStatus .ok), .inl rfl, Program.reaches_first _⟩

/-- What is taken for granted once a host is dialled depends on the dial alone. -/
theorem presumes_serve {timeout : Nat} {r : Request} :
    (serve timeout r).Presumes ⟨channel, network⟩ s ↔ r.method = Method.connect ∧
      ∃ host, r.uri.authority? = some host ∧ network.dial host.text timeout = .connected := by
  by_cases hm : r.method = Method.connect
  · cases hhost : r.uri.authority? with
    | none =>
      rw [serve_of_no_authority timeout hm hhost]
      simp [Program.Presumes, Program.not_reaches_returns]
    | some host =>
      have ha : World.answer ⟨channel, network⟩ (.dial host.text timeout) s =
        .replied (network.dial host.text timeout) s := rfl
      rw [serve_connect timeout hm hhost]
      simp only [hm, true_and, Option.some.injEq, exists_eq_left']
      constructor
      · rintro ⟨effect, hpresumes, hreaches⟩
        rcases hreaches.cases with rfl | ⟨reply, t, hreply, hrest⟩
        · exact hpresumes.elim
        · cases ha.symm.trans hreply
          exact presumes_proceed.mp ⟨effect, hpresumes, hrest⟩
      · intro hconnected
        have hproceed : (proceed host.text (network.dial host.text timeout)).Presumes
            ⟨channel, network⟩ s := presumes_proceed.mpr hconnected
        obtain ⟨effect, hpresumes, hrest⟩ := hproceed
        exact ⟨effect, hpresumes, hrest.later ha⟩
  · have honly : refuse.Only (¬ ·.Presumes) := refuse_only (by rintro (h | h) <;> cases h) id
    rw [serve_of_not_connect timeout hm]
    simp [hm, honly.not_presumes]

end Connect

/-! ## The bridge -/

namespace Tunnel

variable {channel : Channel σ} {s : σ}

/-- Where a capability is missing, the bridge gives up before it does anything. -/
theorem run_bridge_of_missing (network : Network) (alphabet : Base64.Alphabet) (next : Handler)
    (u : Upgrade) (r : Request) (hmissing : (channel.capabilities s).missing ≠ none) :
    let run := (bridge alphabet next u r).run ⟨channel, network⟩ s
    ¬ (bridge alphabet next u r).Presumes ⟨channel, network⟩ s ∧ run.state = s ∧
      (run.outcome = .returned (.error (.invalidHost u.hostText)) ∨
        ∃ capability, (channel.capabilities s).missing = some capability ∧
          run.outcome = .returned (.error (.lacksCapability capability))) := by
  cases htarget : u.target? with
  | none =>
    rw [bridge_of_no_target alphabet next htarget]
    exact ⟨fun ⟨_, _, hreaches⟩ => Program.not_reaches_returns _ hreaches, rfl, .inl rfl⟩
  | some uri =>
    obtain ⟨connect, hretarget, -⟩ := Upgrade.retarget_of_target htarget r
    obtain ⟨capability, hcapability⟩ := Option.ne_none_iff_exists'.mp hmissing
    have ha : World.answer ⟨channel, network⟩ (.call .capabilities) s =
      .replied (channel.capabilities s) s := rfl
    have hprobed : probed ⟨u.key, alphabet⟩ (next connect) (channel.capabilities s) =
        .returns (.error (.lacksCapability capability)) := by
      simp only [probed, hcapability]
    rw [bridge_of_retarget alphabet next hretarget]
    refine ⟨?_, ?_⟩
    · rintro ⟨effect, hpresumes, hreaches⟩
      rcases hreaches.cases with rfl | ⟨reply, t, hreply, hrest⟩
      · exact hpresumes
      · cases ha.symm.trans hreply
        rw [hprobed] at hrest
        exact Program.not_reaches_returns _ hrest
    · rw [Program.run_perform_replied _ ha, hprobed]
      exact ⟨rfl, .inr ⟨capability, hcapability, rfl⟩⟩

end Tunnel

/-! ## The pipeline -/

namespace Server

/-- **Where a capability is missing, it is taken for granted by exactly the CONNECT requests whose
host is dialled with success.** The pipeline of settings never looks at the capabilities for a
request that it does not bridge. For one that it bridges it leaves the channel as it was, and fails
for the host or for the missing capability. -/
theorem presumes_iff (settings : Settings) (network : Network) (channel : Channel σ) (s : σ)
    (r : Request) (hmissing : (channel.capabilities s).missing ≠ none) :
    let q := (pipelineOf settings).serve r
    let run := q.run ⟨channel, network⟩ s
    (q.Presumes ⟨channel, network⟩ s ↔ r.method = Method.connect ∧
      ∃ host, r.uri.authority? = some host ∧
        network.dial host.text (1000 * settings.timeouts.connectSecs) = .connected) ∧
    (settings.handshake.enabled = false ∨ Upgrade.detect r = none →
      ¬ q.Reaches ⟨channel, network⟩ s (.call .capabilities)) ∧
    (∀ u, settings.handshake.enabled = true → Upgrade.detect r = some u → run.state = s ∧
      (run.outcome = .returned (.error (.invalidHost u.hostText)) ∨
        ∃ capability, (channel.capabilities s).missing = some capability ∧
          run.outcome = .returned (.error (.lacksCapability capability)))) := by
  intro q run
  by_cases hdirect : settings.handshake.enabled = false ∨ Upgrade.detect r = none
  · have hq : q = Connect.serve (1000 * settings.timeouts.connectSecs) r := serve_of_not_detect hdirect
    refine ⟨?_, fun _ hreaches => ?_, fun u henabled hdetect => ?_⟩
    · rw [hq]
      exact Connect.presumes_serve
    · rw [hq] at hreaches
      exact (Connect.serve_only _ r).reaches hreaches rfl
    · simp [henabled, hdetect] at hdirect
  · have henabled : settings.handshake.enabled = true := by simpa using fun h => hdirect (.inl h)
    obtain ⟨u, hdetect⟩ := Option.ne_none_iff_exists'.mp fun h => hdirect (.inr h)
    have hq : q = Tunnel.bridge settings.handshake.acceptAlphabet
        (Connect.serve (1000 * settings.timeouts.connectSecs)) u r := serve_of_detect henabled hdetect
    obtain ⟨hpresumes, hrun⟩ := Tunnel.run_bridge_of_missing network
      settings.handshake.acceptAlphabet (Connect.serve (1000 * settings.timeouts.connectSecs)) u r
      hmissing
    rw [← hq] at hpresumes hrun
    refine ⟨⟨fun h => absurd h hpresumes, fun ⟨hm, _⟩ => ?_⟩, fun h => absurd h hdirect,
      fun u' _ hdetect' => ?_⟩
    · cases hdetect.symm.trans (Upgrade.detect_of_connect hm)
    · cases hdetect.symm.trans hdetect'
      exact hrun

/-- A network in which every dial succeeds. -/
def reachable : Network :=
  ⟨fun _ _ => .connected, fun _ => .ok (), fun _ => none⟩

/-- A CONNECT request for a host. -/
def connectRequest : Request :=
  { method := Method.connect, uri := .authority ⟨"backend.internal:9000"⟩ }

/-- A stream without a handle lacks a hijack, which the request above takes for granted. -/
theorem presumes_without_handle :
    (Stream.channel.capabilities {}).missing ≠ none ∧
      ((pipelineOf {}).serve connectRequest).Presumes ⟨Stream.channel, reachable⟩ {} :=
  ⟨by decide, (presumes_iff {} reachable Stream.channel {} connectRequest (by decide)).1.mpr
    ⟨rfl, _, rfl, rfl⟩⟩

/-- The same request is answered by 200 before the handler learns from a hijack that there is none. -/
theorem commits_without_handle :
    let run := ((pipelineOf {}).serve connectRequest).run ⟨Stream.channel, reachable⟩ {}
    (Stream.channel.capabilities {}).missing = some .hijack ∧ run.state.status = some .ok ∧
      run.trace.map Sigma.fst = [.dial "backend.internal:9000" 5000, .call (.writeStatus .ok),
        .call .flush, .call .hijack] ∧
      run.outcome = .returned (.error (.channel (.unsupported .hijack))) :=
  ⟨rfl, rfl, rfl, rfl⟩

end Server

end UpgradeBridge
