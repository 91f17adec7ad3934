/-
The answer that a request gets from the pipeline of some settings, whatever the
network does: which response, and which host was dialled for it.

A delivery `Holds` a response from the commit on: what a takeover does after it
neither changes the head nor writes to the body. So the answer is decided by the
first commit of the run, or by the error that the run comes to without one.
-/
import UpgradeBridge.Proofs.Routes
import UpgradeBridge.Proofs.Settlement

namespace UpgradeBridge

namespace Server

/-! ## What a run comes to -/

/-- The response that tells a client of an error. -/
def refusal (status : Status) (error : HandlerError) : Response :=
  { status, headers := ∅, body := utf8 (error.message ++ "\n") }

/-- A run of the pipeline comes to this response, and these hosts are dialled in it. -/
structure Ends (run : Run Delivery (Except HandlerError Unit)) (response : Response)
    (hosts : List String) : Prop where
  holds : (settled run).Holds response
  dialled : run.dialled = hosts

theorem settled_of_error {run : Run Delivery (Except HandlerError Unit)} {error : HandlerError}
    {status : Status} {handle : Option UpgradeHandle} (hstatus : error.status = status)
    (houtcome : run.outcome = .returned (.error error)) (hstate : run.state = .start handle) :
    (settled run).Holds (refusal status error) := by
  have hopen : run.state.Open ∅ := by
    rw [hstate]
    exact Delivery.open_start handle
  rw [← hstatus]
  exact settled_of_failed hopen houtcome

/-! ## Answers -/

/-- The answer to a request once its host is dialled; `ready` says what a connection is answered. -/
inductive Dialled (network : Network) (timeout : Nat) (host : String) (ready : Response → Prop) :
    Response → Prop
  | failed {error} : network.dial host timeout = .failed error →
      Dialled network timeout host ready (refusal .badGateway (.connectFailed host error))
  | timedOut : network.dial host timeout = .timedOut →
      Dialled network timeout host ready (refusal .gatewayTimeout (.connectTimedOut host))
  | connected {response} : network.dial host timeout = .connected → ready response →
      Dialled network timeout host ready response

/-- A response without a body that completes a handshake. -/
structure Switches (p : ProtocolSwitch) (response : Response) : Prop where
  status : response.status = .switchingProtocols
  headers : p.Completes ∅ response.headers
  body : response.body = []

/-- The answer to a request for a WebSocket, with the hosts that are dialled for it. -/
inductive AnswersUpgrade (network : Network) (timeout : Nat) (alphabet : Base64.Alphabet)
    (handle : Option UpgradeHandle) (u : Upgrade) : Response → List String → Prop
  | invalidHost : u.target? = none →
      AnswersUpgrade network timeout alphabet handle u
        (refusal .badRequest (.invalidHost u.hostText)) []
  | lacksHijack {host} : u.target? = some (.authority host) → handle = none →
      AnswersUpgrade network timeout alphabet handle u
        (refusal .internalServerError (.lacksCapability .hijack)) []
  | dialled {host response} : u.target? = some (.authority host) → handle ≠ none →
      Dialled network timeout host.text (Switches ⟨u.key, alphabet⟩) response →
      AnswersUpgrade network timeout alphabet handle u response [host.text]

/-- The answer to any other request, with the hosts that are dialled for it. -/
inductive AnswersTunnel (network : Network) (timeout : Nat) (r : Request) :
    Response → List String → Prop
  | notConnect : r.method ≠ Method.connect →
      AnswersTunnel network timeout r ⟨.methodNotAllowed, ∅, utf8 Connect.refusal⟩ []
  | invalidHost : r.method = Method.connect → r.uri.authority? = none →
      AnswersTunnel network timeout r (refusal .badRequest (.invalidHost r.uri.text)) []
  | dialled {host response} : r.method = Method.connect → r.uri.authority? = some host →
      Dialled network timeout host.text (· = ⟨.ok, ∅, []⟩) response →
      AnswersTunnel network timeout r response [host.text]

section Runs

variable (network : Network) (timeout : Nat) (handle : Option UpgradeHandle)

/-- A run that takes the connection over after a commit ends with what was committed. -/
theorem run_takeOver (host : String) {d : Delivery} {response : Response} (h : d.Holds response) :
    ((Connect.takeOver host).run ⟨Delivery.channel, network⟩ d).state.Holds response ∧
      ((Connect.takeOver host).run ⟨Delivery.channel, network⟩ d).dialled = [] :=
  ⟨(Connect.takeOver_only host).run (Delivery.Holds · response)
      (fun _ _ hallowed hd => hd.answer network fun _ => hallowed.ne id) h,
    Run.dialled_eq_nil fun x hx _ _ => ((Connect.takeOver_only host).mem_trace _ d x hx).ne id⟩

/-- A program that dials first, and gives up if that fails. -/
theorem run_dial (host : String) (ready : Response → Prop)
    (next : Dial → Program (Except HandlerError Unit))
    (hfailed : ∀ error, next (.failed error) = .returns (.error (.connectFailed host error)))
    (htimedOut : next .timedOut = .returns (.error (.connectTimedOut host)))
    (hconnected : ∃ response, ready response ∧
      Ends ((next .connected).run ⟨Delivery.channel, network⟩ (.start handle)) response []) :
    ∃ response, Dialled network timeout host ready response ∧
      Ends ((Program.perform (.dial host timeout) next).run ⟨Delivery.channel, network⟩
        (.start handle)) response [host] := by
  have ha : World.answer ⟨Delivery.channel, network⟩ (.dial host timeout) (.start handle) =
    .replied (network.dial host timeout) (.start handle) := rfl
  rw [Program.run_perform_replied next ha]
  cases hdial : network.dial host timeout with
  | failed error =>
    rw [hfailed]
    exact ⟨_, .failed hdial, settled_of_error rfl rfl rfl, rfl⟩
  | timedOut =>
    rw [htimedOut]
    exact ⟨_, .timedOut hdial, settled_of_error rfl rfl rfl, rfl⟩
  | connected =>
    obtain ⟨response, hready, hends⟩ := hconnected
    exact ⟨response, .connected hdial hready, hends.holds, congrArg (host :: ·) hends.dialled⟩

/-- A request that does not ask for a tunnel is told so. -/
theorem run_refuse : Ends (Connect.refuse.run ⟨Delivery.channel, network⟩ (.start handle))
    ⟨.methodNotAllowed, ∅, utf8 Connect.refusal⟩ [] :=
  ⟨settled_of_holds ⟨rfl, ⟨rfl, rfl⟩, List.append_nil _⟩, rfl⟩

/-- A tunnel that is joined answers 200. -/
theorem run_join (host : String) :
    Ends ((Connect.join host).run ⟨Delivery.channel, network⟩ (.start handle)) ⟨.ok, ∅, []⟩ [] := by
  have hcommit := Delivery.holds_writeStatus handle ∅ .ok
  obtain ⟨hholds, hdialled⟩ := run_takeOver network host hcommit
  exact ⟨settled_of_holds hholds, hdialled⟩

theorem serve_answers_tunnel (r : Request) : ∃ response hosts,
    AnswersTunnel network timeout r response hosts ∧
      Ends ((Connect.serve timeout r).run ⟨Delivery.channel, network⟩ (.start handle)) response
        hosts := by
  by_cases hm : r.method = Method.connect
  · cases hhost : r.uri.authority? with
    | none =>
      rw [Connect.serve_of_no_authority timeout hm hhost]
      exact ⟨_, _, .invalidHost hm hhost, settled_of_error rfl rfl rfl, rfl⟩
    | some host =>
      obtain ⟨response, hanswer, hends⟩ := run_dial network timeout handle host.text
        (· = ⟨.ok, ∅, []⟩) (Connect.proceed host.text) (fun _ => rfl) rfl
        ⟨_, rfl, run_join network handle host.text⟩
      rw [Connect.serve_connect timeout hm hhost]
      exact ⟨response, _, .dialled hm hhost hanswer, hends⟩
  · rw [Connect.serve_of_not_connect timeout hm]
    exact ⟨_, _, .notConnect hm, run_refuse network handle⟩

theorem switches_of_completes {p : ProtocolSwitch} {headers : Headers} (h : p.Completes ∅ headers) :
    Switches p ⟨.switchingProtocols, headers, []⟩ :=
  ⟨rfl, h, rfl⟩

/-- A tunnel that is joined behind a protocol switch completes the handshake. -/
theorem run_join_switch (host : String) (p : ProtocolSwitch) : ∃ response, Switches p response ∧
    Ends ((Tunnel.behind p (Connect.join host)).run ⟨Delivery.channel, network⟩ (.start handle))
      response [] := by
  -- the staged fields get a name, or each step below would compute the accept token
  obtain ⟨headers, hstaged, hcompletes⟩ : ∃ headers,
      Delivery.channel.editAll (.start handle) p.edits =
        { stream := { upgrade := handle, headers } } ∧ p.Completes ∅ headers :=
    ⟨_, Delivery.editAll_eq _ _, p.completes_edits ∅⟩
  have hcommit := Delivery.holds_writeStatus handle headers .switchingProtocols
  obtain ⟨hholds, hdialled⟩ := run_takeOver network host hcommit
  obtain ⟨staged, hedits, -, hrun⟩ := ProtocolSwitch.run_stage ⟨Delivery.channel, network⟩
    (.perform (.call (.writeStatus .switchingProtocols)) fun _ =>
      p.apply .switched (Connect.takeOver host)) p.edits (.start handle)
  have hjoin : p.apply .waiting (Connect.join host) =
      ProtocolSwitch.stage p.edits (.perform (.call (.writeStatus .switchingProtocols)) fun _ =>
        p.apply .switched (Connect.takeOver host)) := p.apply_perform_ready _
  have ha : World.answer ⟨Delivery.channel, network⟩ (.call (.writeStatus .switchingProtocols))
    { stream := { upgrade := handle, headers } } = .replied () _ := rfl
  rw [Tunnel.behind, Program.run_bind_returns, hjoin, hrun, hstaged, Program.run_perform_replied _ ha,
    p.run_apply_of_ne_waiting _ _ _ (by simp)]
  refine ⟨_, switches_of_completes hcompletes, settled_of_holds hholds, ?_⟩
  rw [Run.map_dialled, Run.dialled_after fun x hx => ?_]
  · exact hdialled
  · rintro host timeout heq
    have hedit := hedits x hx
    obtain ⟨effect, reply⟩ := x
    subst heq
    cases hedit

/-- Behind a protocol switch a CONNECT request whose backend answers completes the handshake. -/
theorem run_serve_switch (p : ProtocolSwitch) {r : Request} {host : Authority}
    (hm : r.method = Method.connect) (hhost : r.uri.authority? = some host) :
    ∃ response, Dialled network timeout host.text (Switches p) response ∧
      Ends ((Tunnel.behind p (Connect.serve timeout r)).run ⟨Delivery.channel, network⟩ (.start handle))
        response [host.text] := by
  rw [Connect.serve_connect timeout hm hhost, Tunnel.behind_dial]
  exact run_dial network timeout handle host.text (Switches p) _ (fun _ => rfl) rfl
    (run_join_switch network handle host.text p)

/-- A fresh delivery lacks nothing but a handle. -/
theorem missing_start : (Delivery.channel.capabilities (.start handle)).missing =
    if handle = none then some .hijack else none := by
  cases handle <;> rfl

theorem serve_answers_upgrade (alphabet : Base64.Alphabet) (u : Upgrade) (r : Request) :
    ∃ response hosts, AnswersUpgrade network timeout alphabet handle u response hosts ∧
      Ends ((Tunnel.bridge alphabet (Connect.serve timeout) u r).run ⟨Delivery.channel, network⟩
        (.start handle)) response hosts := by
  cases htarget : u.target? with
  | none =>
    rw [Tunnel.bridge_of_no_target alphabet _ htarget]
    exact ⟨_, _, .invalidHost htarget, settled_of_error rfl rfl rfl, rfl⟩
  | some uri =>
    obtain ⟨host, rfl⟩ := Upgrade.target_authority htarget
    obtain ⟨connect, hretarget, hmethod, huri⟩ := Upgrade.retarget_of_target htarget r
    have hhost : connect.uri.authority? = some host := by
      rw [huri]
      rfl
    have ha : World.answer ⟨Delivery.channel, network⟩ (.call .capabilities) (.start handle) =
      .replied (Delivery.channel.capabilities (.start handle)) (.start handle) := rfl
    rw [Tunnel.bridge_of_retarget alphabet _ hretarget, Program.run_perform_replied _ ha]
    simp only [Tunnel.probed, missing_start]
    by_cases hhandle : handle = none
    · rw [if_pos hhandle]
      exact ⟨_, _, .lacksHijack htarget hhandle, settled_of_error rfl rfl rfl, rfl⟩
    · obtain ⟨response, hanswer, hends⟩ :=
        run_serve_switch network timeout handle ⟨u.key, alphabet⟩ hmethod hhost
      rw [if_neg hhandle]
      refine ⟨response, _, .dialled htarget hhandle hanswer, hends.holds, ?_⟩
      rw [Run.dialled_after (by simp)]
      exact hends.dialled

end Runs

/-- **Every request is answered by exactly one head**, whatever the network does, with or without a
handle for the client's connection: the pipeline of settings leaves a response that was committed
once. A request for a WebSocket is answered as `AnswersUpgrade` says if the handshake is enabled; any
other request is answered as `AnswersTunnel` says. -/
theorem serve_answers (s : Settings) (network : Network) (handle : Option UpgradeHandle)
    (r : Request) :
    let run := ((pipelineOf s).serve r).run ⟨Delivery.channel, network⟩ (.start handle)
    let timeout := 1000 * s.timeouts.connectSecs
    ∃ response, (settled run).Holds response ∧ settle run = response ∧
      (∀ u, s.handshake.enabled = true → Upgrade.detect r = some u →
        AnswersUpgrade network timeout s.handshake.acceptAlphabet handle u response run.dialled) ∧
      (s.handshake.enabled = false ∨ Upgrade.detect r = none →
        AnswersTunnel network timeout r response run.dialled) := by
  intro run timeout
  by_cases h : s.handshake.enabled = true ∧ (Upgrade.detect r).isSome
  · obtain ⟨henabled, hsome⟩ := h
    obtain ⟨u, hdetect⟩ := Option.isSome_iff_exists.mp hsome
    obtain ⟨response, hosts, hanswer, hends⟩ :=
      serve_answers_upgrade network timeout handle s.handshake.acceptAlphabet u r
    rw [← serve_of_detect henabled hdetect] at hends
    rw [← hends.dialled] at hanswer
    refine ⟨response, hends.holds, settle_eq hends.holds, fun u' _ hu' => ?_, fun hno => ?_⟩
    · obtain rfl := Option.some.inj (hdetect.symm.trans hu')
      exact hanswer
    · simp [henabled, hdetect] at hno
  · have hno : s.handshake.enabled = false ∨ Upgrade.detect r = none := by
      rw [not_and_or] at h
      simpa using h
    obtain ⟨response, hosts, hanswer, hends⟩ := serve_answers_tunnel network timeout handle r
    rw [← serve_of_not_detect hno] at hends
    rw [← hends.dialled] at hanswer
    refine ⟨response, hends.holds, settle_eq hends.holds, fun u henabled hu => ?_, fun _ => hanswer⟩
    exact absurd ⟨henabled, by simp [hu]⟩ h

end Server

end UpgradeBridge
