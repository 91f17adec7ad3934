/-
What a tunnel does with a request, whatever the stage after it is: it hands the
request on as it is, or it fails and has done nothing, or it hands the CONNECT
request on, behind a switch, and returns what becomes of that.

Which requests are handed on is told by `watch`, which notes them in front of the
stage. The tunnel itself looks at the capabilities of the channel, and that is all
it does there.
-/
import UpgradeBridge.Channel.Recorder
import UpgradeBridge.Proofs.Pipeline
import UpgradeBridge.Proofs.Retarget
import UpgradeBridge.Proofs.SwitchedChannel

namespace UpgradeBridge

variable {σ : Type}

namespace Tunnel

/-- A look at the capabilities of a channel. -/
def looked (w : World σ) (s : σ) : Exchanged :=
  ⟨.call .capabilities, w.channel.capabilities s⟩

/-- A request that was handed on, as it is noted. -/
def noted (place : Place) (r : Request) : Exchanged :=
  ⟨.note place (.saw r), ()⟩

theorem run_watch (place : Place) (next : Handler) (r : Request) (w : World σ) (s : σ) :
    (watch place next r).run w s = ((next r).run w s).after [noted place r] := rfl

/-! ## The bridge -/

theorem run_bridge_lacking (alphabet : Base64.Alphabet) (next : Handler) {u : Upgrade}
    {r connect : Request} (h : u.retarget r = .ok connect) (w : World σ) (s : σ)
    {capability : Capability} (hmissing : (w.channel.capabilities s).missing = some capability) :
    (bridge alphabet next u r).run w s =
      ⟨.returned (.error (.lacksCapability capability)), s, [looked w s]⟩ := by
  have ha : w.answer (.call .capabilities) s = .replied (w.channel.capabilities s) s := rfl
  rw [bridge_of_retarget alphabet next h, Program.run_perform_replied _ ha]
  simp only [probed, hmissing]
  rfl

theorem run_bridge_complete (alphabet : Base64.Alphabet) (next : Handler) {u : Upgrade}
    {r connect : Request} (h : u.retarget r = .ok connect) (w : World σ) (s : σ)
    (hcomplete : (w.channel.capabilities s).missing = none) :
    (bridge alphabet next u r).run w s =
      (((ProtocolSwitch.apply ⟨u.key, alphabet⟩ .waiting (next connect)).run w s).map
        Prod.fst).after [looked w s] := by
  have ha : w.answer (.call .capabilities) s = .replied (w.channel.capabilities s) s := rfl
  rw [bridge_of_retarget alphabet next h, Program.run_perform_replied _ ha]
  simp only [probed, hcomplete, behind]
  rw [Program.run_bind_returns]
  rfl

/-- A note is no matter of the switch. -/
theorem run_apply_watch (p : ProtocolSwitch) (place : Place) (next : Handler) (r : Request)
    (w : World σ) (s : σ) :
    (p.apply .waiting (watch place next r)).run w s =
      ((p.apply .waiting (next r)).run w s).after [noted place r] := rfl

/-- A request that is handed on is served on the channel that the switch makes, and what becomes of it
is what becomes of the tunnel. -/
theorem run_bridge_switched (alphabet : Base64.Alphabet) (next : Handler) {u : Upgrade}
    {r connect : Request} (h : u.retarget r = .ok connect) (w : World σ) (s : σ)
    (hcomplete : (w.channel.capabilities s).missing = none) :
    let p : ProtocolSwitch := ⟨u.key, alphabet⟩
    let served := (next connect).run (p.world w) (s, .waiting)
    (bridge alphabet next u r).run w s = ⟨served.outcome, served.state.1,
      looked w s :: ((p.apply .waiting (next connect)).run w s).trace⟩ := by
  intro p served
  obtain ⟨houtcome, hstate⟩ := p.run_apply w (next connect) .waiting s
  rw [run_bridge_complete alphabet next h w s hcomplete, Run.after, Run.map, houtcome, hstate,
    Outcome.map_map]
  exact congrArg (Run.mk · served.state.1 _) (Outcome.map_id _)

/-! ## The tunnel -/

/-- **A tunnel hands a request on exactly once, or does nothing.** A request that asks for no
WebSocket goes on as it is, and the tunnel is no more than the stage after it. Otherwise a host that is
no authority is refused first, and a missing capability second, a flush before a hijack; then nothing
is handed on and the channel is as it was. In all other cases the CONNECT request is handed on, once,
to be served on the channel that a fresh switch for the key and the alphabet makes; how that ends is
how the tunnel ends, and but for a look at the capabilities the channel is given what the switch
conveys and nothing else. -/
theorem hands_on_once (alphabet : Base64.Alphabet) (next : Handler) (r : Request) (w : World σ)
    (s : σ) (place : Place) :
    let run := (tunnel alphabet next r).run w s
    let watched := (tunnel alphabet (watch place next) r).run w s
    let able := w.channel.capabilities s
    (Upgrade.detect r = none →
      tunnel alphabet next r = next r ∧ watched = run.after [noted place r]) ∧
    ∀ u, Upgrade.detect r = some u →
      (¬ Routable u.hostText →
        run = ⟨.returned (.error (.invalidHost u.hostText)), s, []⟩ ∧ watched = run) ∧
      (Routable u.hostText → able.flush = false →
        run = ⟨.returned (.error (.lacksCapability .flush)), s, [looked w s]⟩ ∧ watched = run) ∧
      (Routable u.hostText → able.flush = true → able.hijack = false →
        run = ⟨.returned (.error (.lacksCapability .hijack)), s, [looked w s]⟩ ∧ watched = run) ∧
      (Routable u.hostText → able.flush = true → able.hijack = true →
        ∃ connect conveyed, u.retarget r = .ok connect ∧
          let p : ProtocolSwitch := { key := u.key, alphabet }
          let served := (next connect).run (p.world w) (s, .waiting)
          run = ⟨served.outcome, served.state.1, looked w s :: conveyed⟩ ∧
          p.Conveys w s served.trace conveyed ∧
          watched = { run with trace := looked w s :: noted place connect :: conveyed }) := by
  intro run watched able
  refine ⟨fun hdetect => ?_, fun u hdetect => ?_⟩
  · have hthrough : ∀ next, tunnel alphabet next r = next r := fun next =>
      tunnel_of_not_detect alphabet next hdetect
    refine ⟨hthrough next, ?_⟩
    simp only [run, watched, hthrough]
    exact run_watch place next r w s
  have hbridge : ∀ next, tunnel alphabet next r = bridge alphabet next u r := fun next => by
    simp only [tunnel, hdetect]
  simp only [run, watched, hbridge]
  have hlacking : ∀ {capability}, Routable u.hostText → able.missing = some capability → ∀ next,
      (bridge alphabet next u r).run w s =
        ⟨.returned (.error (.lacksCapability capability)), s, [looked w s]⟩ :=
    fun h hmissing next => run_bridge_lacking alphabet next (Upgrade.retarget_of_routable h r) w s hmissing
  refine ⟨fun h => ?_, fun h hflush => ?_, fun h hflush hhijack => ?_, fun h hflush hhijack => ?_⟩
  · rw [run_bridge_of_not_routable alphabet _ h, run_bridge_of_not_routable alphabet _ h]
    exact ⟨rfl, rfl⟩
  · have hmissing : able.missing = some .flush := by simp [Capabilities.missing, hflush]
    rw [hlacking h hmissing, hlacking h hmissing]
    exact ⟨rfl, rfl⟩
  · have hmissing : able.missing = some .hijack := by simp [Capabilities.missing, hflush, hhijack]
    rw [hlacking h hmissing, hlacking h hmissing]
    exact ⟨rfl, rfl⟩
  · have hcomplete : able.missing = none := by simp [Capabilities.missing, hflush, hhijack]
    have hretarget := Upgrade.retarget_of_routable h r
    have hrun := run_bridge_switched alphabet next hretarget w s hcomplete
    refine ⟨u.forwarded r, _, hretarget, hrun, ProtocolSwitch.conveys_run _ w _ s, ?_⟩
    rw [run_bridge_complete alphabet _ hretarget w s hcomplete,
      run_bridge_complete alphabet _ hretarget w s hcomplete, run_apply_watch]
    rfl

/-- A request for a WebSocket fails as its dial does, or for the hijack that a channel lacks. -/
theorem hands_on_settled :
    let u : Upgrade := ⟨"c29tZSBvdGhlciBub25jZQ==", ⟨utf8 "tunnel.internal:9000", by decide⟩⟩
    let w : World Recorder := ⟨Recorder.channel, silent⟩
    Upgrade.detect Upgrade.settled = some u ∧ Routable u.hostText ∧
      ((tunnel .standard (Connect.serve 5000) Upgrade.settled).run w {}).outcome =
        .returned (.error (.connectTimedOut "tunnel.internal:9000")) ∧
      (tunnel .standard (Connect.serve 5000) Upgrade.settled).run w { capabilities := ⟨true, false⟩ } =
        ⟨.returned (.error (.lacksCapability .hijack)), { capabilities := ⟨true, false⟩ },
          [⟨.call .capabilities, ⟨true, false⟩⟩]⟩ := by
  intro u w
  have hdetect : Upgrade.detect Upgrade.settled = some u := by decide
  have hroutable : Routable u.hostText :=
    ⟨.authority ⟨"tunnel.internal:9000"⟩, by decide, rfl, by simp [Uri.authority?]⟩
  obtain ⟨-, -, -, hserved⟩ :=
    (hands_on_once .standard (Connect.serve 5000) Upgrade.settled w {} .handler).2 u hdetect
  obtain ⟨-, -, hlacking, -⟩ := (hands_on_once .standard (Connect.serve 5000) Upgrade.settled w
    { capabilities := ⟨true, false⟩ } .handler).2 u hdetect
  obtain ⟨connect, conveyed, hretarget, hrun, -⟩ := hserved hroutable rfl rfl
  refine ⟨hdetect, hroutable, ?_, (hlacking hroutable rfl rfl).1⟩
  rw [Upgrade.retarget_of_routable hroutable] at hretarget
  cases hretarget
  rw [hrun]
  rfl

end Tunnel

end UpgradeBridge
