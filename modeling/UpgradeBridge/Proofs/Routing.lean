/-
Which host a bridged request comes to: the one that its client named, octet by
octet. The newest value of the header is read as a text, the text as a target,
and the target is dialled; none of these steps changes anything, and a text that
is no authority from end to end is refused before anything is done.
-/
import UpgradeBridge.Proofs.Ascii
import UpgradeBridge.Proofs.Routes

namespace UpgradeBridge

open Header

/-! ## Authorities -/

namespace Authority

/-- No authority goes on over a character that ends it. -/
theorem step_of_isEnd {c : Char} (h : isEnd c = true) (s : Scan) : s.step c = none := by
  simp only [isEnd, Bool.or_eq_true, beq_iff_eq] at h
  rcases h with (rfl | rfl) | rfl <;> rfl

theorem not_isEnd_of_foldlM {cs : List Char} {s t : Scan} (h : cs.foldlM Scan.step s = some t) :
    ∀ c ∈ cs, isEnd c = false := by
  induction cs generalizing s with
  | nil => simp
  | cons c cs ih =>
    rw [List.foldlM_cons] at h
    obtain ⟨u, hstep, hrest⟩ := Option.bind_eq_some_iff.mp h
    refine List.forall_mem_cons.mpr ⟨?_, ih hrest⟩
    cases hend : isEnd c with
    | false => rfl
    | true =>
      rw [step_of_isEnd hend] at hstep
      cases hstep

theorem not_isEnd_of_accepts {cs : List Char} (h : accepts cs = true) : ∀ c ∈ cs, isEnd c = false := by
  unfold accepts at h
  split at h
  · next s hscan => exact not_isEnd_of_foldlM hscan
  · cases h

end Authority

/-! ## Targets -/

namespace Uri

theorem readAuthority?_eq_some {cs : List Char} {uri : Uri} (h : readAuthority? cs = some uri) :
    Authority.accepts cs = true ∧ uri = .authority ⟨String.ofList cs⟩ := by
  unfold readAuthority? at h
  split at h
  · next haccepts =>
    cases h
    exact ⟨haccepts, rfl⟩
  · cases h

/-- A target without a scheme and with an authority is the whole text. -/
theorem readChars?_of_authority {cs : List Char} {uri : Uri} (h : readChars? cs = some uri)
    (hscheme : uri.scheme? = none) (hhost : uri.authority? ≠ none) :
    cs ≠ ['*'] ∧ Authority.accepts cs = true ∧ uri = .authority ⟨String.ofList cs⟩ := by
  unfold readChars? at h
  split at h
  · cases h
  · cases h
    exact absurd rfl hhost
  · obtain ⟨p, -, rfl⟩ := Option.map_eq_some_iff.mp h
    exact absurd rfl hhost
  · next hstar hslash =>
    split at h
    · exact ⟨hstar, readAuthority?_eq_some h⟩
    · cases h
    · simp only at h
      split at h
      · cases h
      · obtain ⟨p, -, rfl⟩ := Option.map_eq_some_iff.mp h
        cases hscheme

end Uri

/-- Read as a target, a text has an authority and no scheme. -/
def Routable (text : String) : Prop :=
  ∃ uri, Uri.read? text = some uri ∧ uri.scheme? = none ∧ uri.authority? ≠ none

theorem Routable.read? {text : String} (h : Routable text) :
    Uri.read? text = some (.authority ⟨text⟩) := by
  obtain ⟨uri, hread, hscheme, hhost⟩ := h
  have hchars := hread
  unfold Uri.read? at hchars
  split at hchars
  · cases hchars
  · obtain ⟨-, -, huri⟩ := Uri.readChars?_of_authority hchars hscheme hhost
    rw [hread, huri, String.ofList_toList]

/-- A routable text holds no character that a path, a query or a fragment starts with. -/
theorem Routable.not_isEnd {text : String} (h : Routable text) :
    text ≠ "*" ∧ ∀ c ∈ text.toList, Authority.isEnd c = false := by
  obtain ⟨uri, hread, hscheme, hhost⟩ := h
  unfold Uri.read? at hread
  split at hread
  · cases hread
  · obtain ⟨hstar, haccepts, -⟩ := Uri.readChars?_of_authority hread hscheme hhost
    refine ⟨?_, Authority.not_isEnd_of_accepts haccepts⟩
    rintro rfl
    exact hstar rfl

/-! ## Hosts of requests -/

namespace Upgrade

/-- The host of a request is the newest value of its header, which is a text. -/
theorem host_of_detect {r : Request} {u : Upgrade} (h : detect r = some u) :
    r.headers.last? Name.xConnectHost = some u.host ∧ u.host.text? = some u.hostText := by
  unfold detect at h
  split at h
  · split at h
    · next key text host _ htext hlast =>
      cases h
      unfold lastText? at htext
      rw [hlast, Option.bind_some] at htext
      refine ⟨hlast, ?_⟩
      cases hvisible : host.text? with
      | none => simp [hvisible] at htext
      | some text' => simp [hostText, hvisible]
    · cases h
  · cases h

theorem target?_of_routable {u : Upgrade} (h : Routable u.hostText) :
    u.target? = some (.authority ⟨u.hostText⟩) := by
  rw [target?, h.read?]

theorem target?_of_not_routable {u : Upgrade} (h : ¬ Routable u.hostText) : u.target? = none := by
  unfold target?
  split
  · next a hread => exact absurd ⟨_, hread, rfl, by simp [Uri.authority?]⟩ h
  · rfl

end Upgrade

/-! ## Dials -/

namespace Tunnel

variable {σ : Type} {channel : Channel σ} {s : σ}

theorem run_bridge_of_not_routable (alphabet : Base64.Alphabet) (next : Handler) {u : Upgrade}
    (h : ¬ Routable u.hostText) (r : Request) (w : World σ) (s : σ) :
    (bridge alphabet next u r).run w s =
      ⟨.returned (.error (.invalidHost u.hostText)), s, []⟩ := by
  rw [bridge_of_no_target alphabet next (Upgrade.target?_of_not_routable h)]
  rfl

/-- The host of a routable text is dialled and no other one, and errors that name a host name it. -/
theorem run_bridge_of_routable (network : Network) (alphabet : Base64.Alphabet) (timeout : Nat)
    {u : Upgrade} (h : Routable u.hostText) (r : Request)
    (hcomplete : (channel.capabilities s).missing = none) :
    let run := (bridge alphabet (Connect.serve timeout) u r).run ⟨channel, network⟩ s
    run.dialled = [u.hostText] ∧
      ∀ result, run.outcome = .returned result → Connect.Names u.hostText result := by
  intro run
  obtain ⟨connect, hretarget, hmethod, huri⟩ :=
    Upgrade.retarget_of_target (Upgrade.target?_of_routable h) r
  have hhost : connect.uri.authority? = some ⟨u.hostText⟩ := by
    rw [huri]
    rfl
  have hprobed : probed ⟨u.key, alphabet⟩ (Connect.serve timeout connect) (channel.capabilities s) =
      .perform (.dial u.hostText timeout) fun dialled =>
        behind ⟨u.key, alphabet⟩ (Connect.proceed u.hostText dialled) := by
    simp only [probed, hcomplete]
    rw [Connect.serve_connect timeout hmethod hhost, behind_dial]
  have hlook : World.answer ⟨channel, network⟩ (.call .capabilities) s =
    .replied (channel.capabilities s) s := rfl
  have hdial : World.answer ⟨channel, network⟩ (.dial u.hostText timeout) s =
    .replied (network.dial u.hostText timeout) s := rfl
  have honly := behind_only ⟨u.key, alphabet⟩ (by simp) (by simp)
    (Connect.proceed_only u.hostText (network.dial u.hostText timeout))
  have hyields := behind_yields ⟨u.key, alphabet⟩
    (Connect.proceed_yields u.hostText (network.dial u.hostText timeout))
  have hrun : run = ((behind ⟨u.key, alphabet⟩ (Connect.proceed u.hostText
      (network.dial u.hostText timeout))).run ⟨channel, network⟩ s).after
        [⟨.call .capabilities, channel.capabilities s⟩,
          ⟨.dial u.hostText timeout, network.dial u.hostText timeout⟩] := by
    simp only [run]
    rw [bridge_of_retarget alphabet _ hretarget, Program.run_perform_replied _ hlook, hprobed,
      Program.run_perform_replied _ hdial, Run.after_after]
    rfl
  rw [hrun]
  refine ⟨?_, fun result ho => hyields.run _ s result ho⟩
  have hrest := Run.dialled_eq_nil fun x hx => honly.mem_trace ⟨channel, network⟩ s x hx
  exact congrArg (u.hostText :: ·) hrest

/-- What becomes of a bridged request depends on its host alone. -/
theorem run_of_detect (network : Network) (alphabet : Base64.Alphabet) (timeout : Nat) {r : Request}
    {u : Upgrade} (hdetect : Upgrade.detect r = some u)
    (hcomplete : (channel.capabilities s).missing = none) :
    let pipeline : Pipeline := { middleware := [tunnel alphabet], handler := Connect.serve timeout }
    let run := (pipeline.serve r).run ⟨channel, network⟩ s
    (¬ Routable u.hostText → run = ⟨.returned (.error (.invalidHost u.hostText)), s, []⟩) ∧
      (Routable u.hostText → run.dialled = [u.hostText]) ∧
      ∀ result, run.outcome = .returned result → Connect.Names u.hostText result := by
  intro pipeline run
  have hrun : run = (bridge alphabet (Connect.serve timeout) u r).run ⟨channel, network⟩ s := by
    simp only [run, pipeline, Pipeline.serve, Pipeline.chain, tunnel, hdetect]
  rw [hrun]
  by_cases h : Routable u.hostText
  · obtain ⟨hdialled, hnames⟩ := run_bridge_of_routable network alphabet timeout h r hcomplete
    exact ⟨fun hno => absurd h hno, fun _ => hdialled, hnames⟩
  · rw [run_bridge_of_not_routable alphabet _ h]
    refine ⟨fun _ => rfl, fun hyes => absurd hyes h, fun result ho => ?_⟩
    cases ho
    trivial

/-- **The host that is dialled is the one that the client named, octet by octet.** It is the newest
value of the header, and nothing else in the request bears on it. A text that is not `Routable` is
refused, and nothing is done; any other is the target of the CONNECT request that goes on, is dialled
once, and is the host of every error that names one. -/
theorem dials_named_host (alphabet : Base64.Alphabet) (timeout : Nat) {r : Request} {u : Upgrade}
    (hdetect : Upgrade.detect r = some u) (network : Network) (channel : Channel σ) (s : σ)
    (hcomplete : (channel.capabilities s).missing = none) :
    let pipeline : Pipeline := { middleware := [tunnel alphabet], handler := Connect.serve timeout }
    let run := (pipeline.serve r).run ⟨channel, network⟩ s
    ∃ v h, r.headers.last? Name.xConnectHost = some v ∧ v.text? = some h ∧ utf8 h = v.bytes ∧
      (¬ Routable h → run = ⟨.returned (.error (.invalidHost h)), s, []⟩) ∧
      (Routable h → run.dialled = [h] ∧ ∃ connect, u.retarget r = .ok connect ∧
        connect.uri.text = h ∧ connect.uri.authority? = some ⟨h⟩ ∧ connect.uri.scheme? = none ∧
        connect.uri.path? = none) ∧
      (∀ host error, run.outcome = .returned (.error (.connectFailed host error)) → host = h) ∧
      (∀ host, run.outcome = .returned (.error (.connectTimedOut host)) → host = h) ∧
      (Routable h → h ≠ "*" ∧ ∀ c ∈ ['/', '?', '#'], c ∉ h.toList) ∧
      (∀ r' u', Upgrade.detect r' = some u' → r'.headers.last? Name.xConnectHost = some v →
        ((pipeline.serve r').run ⟨channel, network⟩ s).dialled = run.dialled) := by
  intro pipeline run
  obtain ⟨hlast, htext⟩ := Upgrade.host_of_detect hdetect
  obtain ⟨hrefused, hdialled, hnames⟩ := run_of_detect network alphabet timeout hdetect hcomplete
  refine ⟨u.host, u.hostText, hlast, htext, Ascii.utf8_of_visible? htext, hrefused, fun h => ?_,
    fun host error ho => hnames _ ho, fun host ho => hnames _ ho, fun h => ?_, ?_⟩
  · obtain ⟨connect, hretarget, -, huri⟩ :=
      Upgrade.retarget_of_target (Upgrade.target?_of_routable h) r
    refine ⟨hdialled h, connect, hretarget, ?_⟩
    rw [huri]
    exact ⟨rfl, rfl, rfl, rfl⟩
  · obtain ⟨hstar, hend⟩ := h.not_isEnd
    refine ⟨hstar, fun c hc hmem => ?_⟩
    have hcend : Authority.isEnd c = true := by
      simp only [List.mem_cons, List.not_mem_nil, or_false] at hc
      rcases hc with rfl | rfl | rfl <;> rfl
    cases (hend c hmem).symm.trans hcend
  · intro r' u' hdetect' hlast'
    obtain ⟨hrefused', hdialled', -⟩ := run_of_detect network alphabet timeout hdetect' hcomplete
    have hhost : u'.host = u.host :=
      Option.some.inj ((Upgrade.host_of_detect hdetect').1.symm.trans hlast')
    have hsame : u'.hostText = u.hostText := by rw [Upgrade.hostText, hhost, Upgrade.hostText]
    rw [hsame] at hrefused' hdialled'
    by_cases h : Routable u.hostText
    · exact (hdialled' h).trans (hdialled h).symm
    · have hrun' := hrefused' h
      have hrun : run = _ := hrefused h
      rw [hrun', hrun]

/-- A request with two hosts, to be bridged. -/
def namedTwice : Request where
  headers := ⟨[(Name.upgrade, Value.websocket), (Name.connection, Value.upgrade),
    (Name.secWebSocketKey, ⟨utf8 "dGhlIHNhbXBsZSBub25jZQ==", by decide⟩),
    (Name.xConnectHost, ⟨utf8 "edge.example.com:80", by decide⟩),
    (Name.xConnectHost, ⟨utf8 "Backend.internal:9000", by decide⟩)]⟩

/-- A network in which every dial times out. -/
def silent : Network :=
  ⟨fun _ _ => .timedOut, fun _ => .ok (), fun _ => none⟩

theorem dials_newest : ∃ u, Upgrade.detect namedTwice = some u ∧
    (Stream.channel.capabilities { upgrade := some .unavailable }).missing = none ∧
    ((({ middleware := [tunnel .standard], handler := Connect.serve 5000 } : Pipeline).serve
      namedTwice).run ⟨Stream.channel, silent⟩ { upgrade := some .unavailable }).dialled =
        ["Backend.internal:9000"] := by
  have hdetect : Upgrade.detect namedTwice =
      some ⟨"dGhlIHNhbXBsZSBub25jZQ==", ⟨utf8 "Backend.internal:9000", by decide⟩⟩ := by decide
  have hroutable : Routable "Backend.internal:9000" :=
    ⟨.authority ⟨"Backend.internal:9000"⟩, by decide, rfl, by simp [Uri.authority?]⟩
  obtain ⟨v, h, hlast, htext, -, -, hdialled, -⟩ := dials_named_host .standard 5000 hdetect silent
    Stream.channel { upgrade := some .unavailable } rfl
  have hlast' : namedTwice.headers.last? Name.xConnectHost =
      some ⟨utf8 "Backend.internal:9000", by decide⟩ := by decide
  cases hlast.symm.trans hlast'
  have htext' : Header.Value.text? ⟨utf8 "Backend.internal:9000", by decide⟩ =
      some "Backend.internal:9000" := by decide
  cases htext.symm.trans htext'
  exact ⟨_, hdetect, rfl, (hdialled hroutable).1⟩

end Tunnel

end UpgradeBridge
