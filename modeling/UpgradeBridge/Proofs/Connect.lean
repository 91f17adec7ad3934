/-
What the CONNECT handler does to the channel and to the backend, in which order,
and where it stops.

Two laws carry this. A program that `Makes` some effects asks for them in order
and gives up at the first one that fails, with that failure, and so does every run
of it, which ends early for no other reason than that the world keeps it waiting
(`Makes.run`). What a program `Feeds` to the backend is, at every moment and
whatever was answered, a beginning of what was read ahead and then of what the
client sends (`Feeds.asks`); before the connection is taken over the handler sends
nothing at all (`Splices.asks`).
-/
import UpgradeBridge.Proofs.Routes

namespace UpgradeBridge

variable {σ α : Type}

/-! ## Effects in order -/

/-- What it means for a request that an effect failed: the channel refused a call, the host could not
be connected to, or the backend connected to at a host was lost. -/
def Exchanged.failure? (host : String) : Exchanged → Option HandlerError
  | ⟨.call (.write _), .error error⟩ => some (.channel error)
  | ⟨.call .flush, .error error⟩ => some (.channel error)
  | ⟨.call .hijack, .error error⟩ => some (.channel error)
  | ⟨.dial host _, .failed error⟩ => some (.connectFailed host error)
  | ⟨.dial host _, .timedOut⟩ => some (.connectTimedOut host)
  | ⟨.forward _, .error error⟩ => some (.connectFailed host error)
  | _ => none

/-- What is due once a connection was handed over: what was read ahead is sent to the backend, if it is
anything, and then the connection is copied. -/
def Hijacked.splicing (h : Hijacked) : List Effect :=
  if h.buffered = [] then [.relay h.connection] else [.forward h.buffered, .relay h.connection]

/-- The effects that an answer makes due. -/
def Exchanged.entails : Exchanged → List Effect
  | ⟨.call .hijack, .ok hijacked⟩ => hijacked.splicing
  | _ => []

theorem Exchanged.entails_of_ne {x : Exchanged} (h : x.1 ≠ .call .hijack) : x.entails = [] := by
  unfold entails
  split
  · exact absurd rfl h
  · rfl

namespace Run

/-- The effects that were answered, in order. -/
def effects (r : Run σ α) : List Effect :=
  r.trace.map (·.1)

/-- The effects that the answers made due. -/
def entailed (r : Run σ α) : List Effect :=
  r.trace.flatMap Exchanged.entails

theorem effects_after (x : Exchanged) (r : Run σ α) : (r.after [x]).effects = x.1 :: r.effects := rfl

theorem entailed_after (x : Exchanged) (r : Run σ α) :
    (r.after [x]).entailed = x.entails ++ r.entailed := rfl

/-- Some of the effects that are due were answered, and the world keeps the run waiting for the answer
to the next one. -/
def Awaits (w : World σ) (s : σ) (due : List Effect) (run : Run σ α) : Prop :=
  ∃ effect rest t, due = run.effects ++ effect :: rest ∧ w.Answers s run.trace t ∧
    w.answer effect t = .waits run.state ∧ run.outcome = .pending

/-- A run asks for the effects that are due, in order. It goes on until all are answered or one is
awaited, unless an effect fails: it stops there, with that failure, and fails in no other way. -/
structure KeepsOrder (w : World σ) (s : σ) (host : String) (due : List Effect)
    (run : Run σ (Except HandlerError Unit)) : Prop where
  in_order : run.effects <+: due
  completes : run.Awaits w s due ∨ run.effects = due ∧ run.outcome = .returned (.ok ()) ∨
    ∃ x ∈ run.trace, x.failure? host ≠ none
  stops : ∀ before x after error, run.trace = before ++ x :: after → x.failure? host = some error →
    after = [] ∧ run.outcome = .returned (.error error)
  blames : ∀ error, run.outcome = .returned (.error error) →
    ∃ x ∈ run.trace, x.failure? host = some error

variable {w : World σ} {s t : σ} {host : String} {due : List Effect}

theorem keepsOrder_waits {effect : Effect} (ha : w.answer effect s = .waits t) (rest : List Effect) :
    KeepsOrder w s host (effect :: rest) ⟨.pending, t, []⟩ := by
  refine ⟨List.nil_prefix, .inl ⟨effect, rest, s, rfl, .nil, ha, rfl⟩, fun before x after _ htrace => ?_,
    fun _ houtcome => ?_⟩
  · cases before <;> cases htrace
  · cases houtcome

theorem keepsOrder_done : KeepsOrder w s host [] ⟨.returned (.ok ()), s, []⟩ := by
  refine ⟨List.nil_prefix, .inr (.inl ⟨rfl, rfl⟩), fun before x after _ htrace => ?_,
    fun _ houtcome => ?_⟩
  · cases before <;> cases htrace
  · cases houtcome

/-- An effect fails, and the run gives up. -/
theorem keepsOrder_fails {x : Exchanged} {error : HandlerError} (hx : x.failure? host = some error)
    (rest : List Effect) :
    KeepsOrder w s host (x.1 :: rest) ((⟨.returned (.error error), t, []⟩ : Run σ _).after [x]) := by
  refine ⟨?_, .inr (.inr ⟨x, by simp, by simp [hx]⟩), fun before y after error' htrace hy => ?_,
    fun error' houtcome => ?_⟩
  · rw [effects_after]
    exact List.prefix_append [x.1] rest
  · cases before with
    | nil =>
      obtain ⟨rfl, rfl⟩ := List.cons.inj htrace
      cases hx.symm.trans hy
      exact ⟨rfl, rfl⟩
    | cons z before =>
      have hnil := (List.cons.inj htrace).2
      cases before <;> cases hnil
  · cases houtcome
    exact ⟨x, by simp, hx⟩

theorem Awaits.cons {run : Run σ α} {x : Exchanged} (h : run.Awaits w t due)
    (ha : w.answer x.1 s = .replied x.2 t) : (run.after [x]).Awaits w s (x.1 :: due) := by
  obtain ⟨effect, rest, u, hdue, hanswers, hwaits, hpending⟩ := h
  exact ⟨effect, rest, u, congrArg (x.1 :: ·) hdue, .cons ha hanswers, hwaits, hpending⟩

/-- An effect succeeds, and the run goes on. -/
theorem KeepsOrder.cons {run : Run σ (Except HandlerError Unit)} (h : run.KeepsOrder w t host due)
    {x : Exchanged} (ha : w.answer x.1 s = .replied x.2 t) (hx : x.failure? host = none) :
    (run.after [x]).KeepsOrder w s host (x.1 :: due) := by
  refine ⟨?_, ?_, fun before y after error htrace hy => ?_, fun error houtcome => ?_⟩
  · rw [effects_after]
    exact (List.prefix_cons_inj _).mpr h.in_order
  · rw [effects_after]
    refine h.completes.imp (Awaits.cons · ha) (Or.imp (fun hdone => ⟨by rw [hdone.1], hdone.2⟩) ?_)
    rintro ⟨y, hy, hfailed⟩
    exact ⟨y, List.mem_cons_of_mem _ hy, hfailed⟩
  · cases before with
    | nil =>
      obtain ⟨rfl, -⟩ := List.cons.inj htrace
      cases hx.symm.trans hy
    | cons z before => exact h.stops before y after error (List.cons.inj htrace).2 hy
  · obtain ⟨y, hy, hfailed⟩ := h.blames error houtcome
    exact ⟨y, List.mem_cons_of_mem _ hy, hfailed⟩

end Run

theorem World.relay_of_replied {w : World σ} {connection : Connection} {copied : Relay} {s t : σ}
    (h : w.answer (.relay connection) s = .replied copied t) :
    w.network.relay connection = some copied := by
  simp only [answer] at h
  split at h
  · next hrelay =>
    cases h
    exact hrelay
  · cases h

namespace Program

/-- Whatever the answers are, a program asks for these effects in order and then for those that the
answers make due, and gives up at the first effect that fails. -/
def Makes (host : String) : Program (Except HandlerError Unit) → List Effect → Prop
  | returns value, due => due = [] ∧ value = .ok ()
  | perform effect next, due => ∃ rest, due = effect :: rest ∧ ∀ reply,
    match Exchanged.failure? host ⟨effect, reply⟩ with
    | some error => next reply = returns (.error error)
    | none => (next reply).Makes host (rest ++ Exchanged.entails ⟨effect, reply⟩)
  | _, _ => False

/-- Every run of such a program keeps the order. -/
theorem Makes.run (w : World σ) {host : String} {q : Program (Except HandlerError Unit)} :
    ∀ {due : List Effect}, q.Makes host due → ∀ s,
      (q.run w s).KeepsOrder w s host (due ++ (q.run w s).entailed) := by
  induction q with
  | returns value =>
    rintro due ⟨rfl, rfl⟩ s
    exact Run.keepsOrder_done
  | panics | stalls => exact fun h => h.elim
  | perform effect next ih =>
    rintro due ⟨rest, rfl, hnext⟩ s
    cases ha : w.answer effect s with
    | waits t =>
      rw [run_perform_waits next ha]
      exact Run.keepsOrder_waits ha _
    | replied reply t =>
      rw [run_perform_replied next ha, Run.entailed_after]
      specialize hnext reply
      cases hfailed : Exchanged.failure? host ⟨effect, reply⟩ with
      | some error =>
        simp only [hfailed] at hnext
        rw [hnext]
        exact Run.keepsOrder_fails hfailed _
      | none =>
        simp only [hfailed] at hnext
        rw [List.cons_append, ← List.append_assoc]
        exact (ih reply hnext t).cons ha hfailed

end Program

/-! ## What reaches the backend -/

/-- What may have reached the backend of an effect that is under way. -/
def Effect.MaySend : Effect → Bytes → Prop
  | .forward data, sent => sent <+: data
  | .relay connection, sent => sent <+: connection.incoming
  | _, sent => sent = []

/-- What has reached the backend of an effect that was answered. Octets that were sent without success
may have reached it in part. -/
def Exchanged.Delivers : Exchanged → Bytes → Prop
  | ⟨.forward data, .ok _⟩, sent => sent = data
  | ⟨.forward data, .error _⟩, sent => sent <+: data
  | ⟨.relay connection, copied⟩, sent => sent = copied.toBackend connection
  | _, sent => sent = []

theorem Exchanged.Delivers.maySend {x : Exchanged} {sent : Bytes} (h : x.Delivers sent) :
    x.1.MaySend sent := by
  obtain ⟨effect, reply⟩ := x
  cases effect with
  | forward data =>
    cases reply with
    | ok _ =>
      cases h
      exact List.prefix_rfl
    | error e => exact h
  | relay connection =>
    cases h
    exact List.take_prefix _ _
  | _ => exact h

/-- What has reached the backend in the course of a conversation. -/
inductive Delivered : List Exchanged → Bytes → Prop
  | nil : Delivered [] []
  | cons {x asked first rest} : x.Delivers first → Delivered asked rest →
      Delivered (x :: asked) (first ++ rest)

theorem delivered_received (r : Run σ α) : Delivered r.trace r.received := by
  rw [Run.received]
  induction r.trace with
  | nil => exact .nil
  | cons x asked ih =>
    rw [List.flatMap_cons]
    refine .cons ?_ ih
    obtain ⟨effect, reply⟩ := x
    cases effect with
    | forward data =>
      cases reply with
      | ok _ => exact rfl
      | error e => exact List.nil_prefix
    | _ => exact rfl

/-- What a hijack handed over. -/
def Exchanged.handedOver? : Exchanged → Option Hijacked
  | ⟨.call .hijack, .ok hijacked⟩ => some hijacked
  | _ => none

/-- All octets for the backend, in order: what was read ahead, and what the client sends. -/
def Hijacked.stream (h : Hijacked) : Bytes :=
  h.buffered ++ h.connection.incoming

namespace Program

/-- What may have reached the backend of the effect that a program asks for next. -/
def UnderWay : Program α → Bytes → Prop
  | perform effect _, sent => effect.MaySend sent
  | _, sent => sent = []

/-- Nothing of it may have reached the backend yet. -/
theorem underWay_nil (q : Program α) : q.UnderWay [] := by
  cases q with
  | perform effect next =>
    cases effect with
    | forward | relay => exact List.nil_prefix
    | _ => exact rfl
  | _ => exact rfl

/-- After these octets have reached the backend, the program goes on in order: with what was read
ahead and, when all of that has reached the backend, with what the client sends. -/
def Feeds (hijacked : Hijacked) : Program α → Bytes → Prop
  | perform effect next, sent =>
    (∀ more, effect.MaySend more → sent ++ more <+: hijacked.stream) ∧
    (∀ connection, effect = .relay connection →
      connection = hijacked.connection ∧ sent = hijacked.buffered) ∧
    ∀ reply more, Exchanged.Delivers ⟨effect, reply⟩ more → (next reply).Feeds hijacked (sent ++ more)
  | _, sent => sent <+: hijacked.stream

theorem Feeds.asks {hijacked : Hijacked} {q rest : Program α} {asked : List Exchanged} {sent : Bytes}
    (h : q.Feeds hijacked sent) (hasks : q.Asks asked rest) {more : Bytes}
    (hmore : Delivered asked more) : rest.Feeds hijacked (sent ++ more) := by
  induction hasks generalizing sent more with
  | nil =>
    cases hmore
    rw [List.append_nil]
    exact h
  | cons _ ih =>
    cases hmore with
    | cons hfirst hrest =>
      rw [← List.append_assoc]
      exact ih (h.2.2 _ _ hfirst) hrest

theorem Feeds.underWay {hijacked : Hijacked} {q : Program α} {sent : Bytes}
    (h : q.Feeds hijacked sent) {last : Bytes} (hlast : q.UnderWay last) :
    sent ++ last <+: hijacked.stream := by
  cases q with
  | perform effect next => exact h.1 last hlast
  | _ =>
    cases hlast
    rw [List.append_nil]
    exact h

/-- The program sends nothing to the backend before it has taken the connection over, and feeds the
backend from then on. -/
def Splices : Program α → Prop
  | perform effect next => (∀ sent, effect.MaySend sent → sent = []) ∧
    (∀ connection, effect ≠ .relay connection) ∧ ∀ reply,
    match Exchanged.handedOver? ⟨effect, reply⟩ with
    | some hijacked => (next reply).Feeds hijacked []
    | none => (next reply).Splices
  | _ => True

/-- At every moment either nothing has reached the backend, or the connection was taken over and the
backend is fed from it. -/
theorem Splices.asks {q rest : Program α} {asked : List Exchanged} (h : q.Splices)
    (hasks : q.Asks asked rest) {sent : Bytes} (hsent : Delivered asked sent) :
    rest.Splices ∧ sent = [] ∨
      ∃ hijacked, ⟨.call .hijack, .ok hijacked⟩ ∈ asked ∧ rest.Feeds hijacked sent := by
  induction hasks generalizing sent with
  | nil =>
    cases hsent
    exact .inl ⟨h, rfl⟩
  | @cons effect reply next asked rest hasks ih =>
    cases hsent with
    | @cons _ _ first more hfirst hmore =>
    obtain ⟨hsilent, -, hnext⟩ := h
    obtain rfl : first = [] := hsilent first hfirst.maySend
    rw [List.nil_append]
    specialize hnext reply
    cases hover : Exchanged.handedOver? ⟨effect, reply⟩ with
    | none =>
      simp only [hover] at hnext
      refine (ih hnext hmore).imp id fun ⟨hijacked, hmem, hfeeds⟩ => ?_
      exact ⟨hijacked, List.mem_cons_of_mem _ hmem, hfeeds⟩
    | some hijacked =>
      simp only [hover] at hnext
      have hx : (⟨effect, reply⟩ : Exchanged) = ⟨.call .hijack, .ok hijacked⟩ := by
        unfold Exchanged.handedOver? at hover
        split at hover <;> cases hover
        next heq => exact heq
      rw [hx]
      exact .inr ⟨hijacked, List.mem_cons_self, hnext.asks hasks hmore⟩

theorem Splices.underWay {q : Program α} (h : q.Splices) {last : Bytes} (hlast : q.UnderWay last) :
    last = [] := by
  cases q with
  | perform effect next => exact h.1 last hlast
  | _ => exact hlast

/-- At every moment what has reached the backend is a beginning of the octets of a connection that was
taken over, and the connection is copied once all that was read ahead has arrived. -/
theorem Splices.fed {q rest : Program α} {asked : List Exchanged} (h : q.Splices)
    (hasks : q.Asks asked rest) {sent : Bytes} (hsent : Delivered asked sent) :
    (∀ last, rest.UnderWay last → sent ++ last = [] ∨
      ∃ hijacked, ⟨.call .hijack, .ok hijacked⟩ ∈ asked ∧ sent ++ last <+: hijacked.stream) ∧
    ∀ connection next, rest = .perform (.relay connection) next →
      ∃ hijacked, ⟨.call .hijack, .ok hijacked⟩ ∈ asked ∧ connection = hijacked.connection ∧
        sent = hijacked.buffered := by
  rcases h.asks hasks hsent with ⟨hsplices, rfl⟩ | ⟨hijacked, hmem, hfeeds⟩
  · refine ⟨fun last hlast => .inl (hsplices.underWay hlast), fun connection next hrest => ?_⟩
    rw [hrest] at hsplices
    exact absurd rfl (hsplices.2.1 connection)
  · refine ⟨fun last hlast => .inr ⟨hijacked, hmem, hfeeds.underWay hlast⟩,
      fun connection next hrest => ?_⟩
    rw [hrest] at hfeeds
    obtain ⟨hconnection, hahead⟩ := hfeeds.2.1 connection rfl
    exact ⟨hijacked, hmem, hconnection, hahead⟩

end Program

/-! ## The CONNECT handler -/

namespace Connect

/-- What is left of a takeover when the connection was handed over. -/
def splice (host : String) (hijacked : Hijacked) : Program (Except HandlerError Unit) := do
  match ← forwardBuffered hijacked.buffered with
  | .error error => pure (.error (.connectFailed host error))
  | .ok () => do
    let _ ← Program.relay hijacked.connection
    pure (.ok ())

theorem splice_of_empty (host : String) {hijacked : Hijacked} (h : hijacked.buffered = []) :
    splice host hijacked = .perform (.relay hijacked.connection) fun _ => .returns (.ok ()) := by
  simp only [splice, forwardBuffered, h]
  rfl

theorem splice_of_ne (host : String) {hijacked : Hijacked} (h : hijacked.buffered ≠ []) :
    splice host hijacked = .perform (.forward hijacked.buffered) fun
      | .error error => .returns (.error (.connectFailed host error))
      | .ok () => .perform (.relay hijacked.connection) fun _ => .returns (.ok ()) := by
  have hne : hijacked.buffered.isEmpty = false := by simpa using h
  simp only [splice, forwardBuffered, hne]
  refine congrArg (Program.perform _) (funext fun forwarded => ?_)
  cases forwarded <;> rfl

theorem join_eq (host : String) : join host = .perform (.call (.writeStatus .ok)) fun _ =>
    .perform (.call .flush) fun
      | .error error => .returns (.error (.channel error))
      | .ok () => .perform (.call .hijack) fun
        | .error error => .returns (.error (.channel error))
        | .ok hijacked => splice host hijacked := by
  refine congrArg (Program.perform _) (funext fun _ => congrArg (Program.perform _) (funext fun r => ?_))
  cases r with
  | error => rfl
  | ok _ =>
    refine congrArg (Program.perform _) (funext fun r => ?_)
    cases r <;> rfl

theorem refuse_makes (host : String) :
    refuse.Makes host [.call (.writeStatus .methodNotAllowed), .call (.write (utf8 refusal))] := by
  refine ⟨_, rfl, fun _ => ⟨_, rfl, fun written => ?_⟩⟩
  cases written with
  | error => rfl
  | ok _ => exact ⟨rfl, rfl⟩

theorem splice_makes (host : String) (hijacked : Hijacked) :
    (splice host hijacked).Makes host hijacked.splicing := by
  by_cases h : hijacked.buffered = []
  · rw [splice_of_empty host h, Hijacked.splicing, if_pos h]
    exact ⟨_, rfl, fun _ => ⟨rfl, rfl⟩⟩
  · rw [splice_of_ne host h, Hijacked.splicing, if_neg h]
    refine ⟨_, rfl, fun forwarded => ?_⟩
    cases forwarded with
    | error => rfl
    | ok _ => exact ⟨_, rfl, fun _ => ⟨rfl, rfl⟩⟩

theorem join_makes (host : String) :
    (join host).Makes host [.call (.writeStatus .ok), .call .flush, .call .hijack] := by
  rw [join_eq]
  refine ⟨_, rfl, fun _ => ⟨_, rfl, fun flushed => ?_⟩⟩
  cases flushed with
  | error => rfl
  | ok _ =>
    refine ⟨_, rfl, fun hijacked => ?_⟩
    cases hijacked with
    | error => rfl
    | ok hijacked => exact splice_makes host hijacked

theorem relay_feeds (hijacked : Hijacked) :
    (Program.perform (.relay hijacked.connection) fun _ =>
      .returns (.ok () : Except HandlerError Unit)).Feeds hijacked hijacked.buffered := by
  refine ⟨fun more hmore => ?_, fun connection h => ?_, fun copied more hmore => ?_⟩
  · exact (List.prefix_append_right_inj _).mpr hmore
  · cases h
    exact ⟨rfl, rfl⟩
  · exact (List.prefix_append_right_inj _).mpr hmore.maySend

theorem splice_feeds (host : String) (hijacked : Hijacked) : (splice host hijacked).Feeds hijacked [] := by
  by_cases h : hijacked.buffered = []
  · rw [splice_of_empty host h, ← h]
    exact relay_feeds hijacked
  · rw [splice_of_ne host h]
    have hahead : ∀ more, more <+: hijacked.buffered → [] ++ more <+: hijacked.stream :=
      fun more hmore => hmore.trans (List.prefix_append _ _)
    refine ⟨hahead, fun connection h => (by cases h), fun forwarded more hmore => ?_⟩
    cases forwarded with
    | error => exact hahead more hmore
    | ok _ =>
      cases hmore
      exact relay_feeds hijacked

theorem join_splices (host : String) : (join host).Splices := by
  rw [join_eq]
  refine ⟨fun _ h => h, nofun, fun _ => ⟨fun _ h => h, nofun, fun flushed => ?_⟩⟩
  cases flushed with
  | error => trivial
  | ok _ =>
    refine ⟨fun _ h => h, nofun, fun hijacked => ?_⟩
    cases hijacked with
    | error => trivial
    | ok hijacked => exact splice_feeds host hijacked

theorem serve_splices (timeout : Nat) (r : Request) : (serve timeout r).Splices := by
  by_cases hm : r.method = Method.connect
  · cases hhost : r.uri.authority? with
    | none =>
      rw [serve_of_no_authority timeout hm hhost]
      trivial
    | some host =>
      rw [serve_connect timeout hm hhost]
      refine ⟨fun _ h => h, nofun, fun dialled => ?_⟩
      cases dialled with
      | connected => exact join_splices host.text
      | _ => trivial
  · rw [serve_of_not_connect timeout hm]
    refine ⟨fun _ h => h, nofun, fun _ => ⟨fun _ h => h, nofun, fun written => ?_⟩⟩
    cases written <;> trivial

theorem serve_makes (timeout : Nat) {r : Request} {host : Authority} (hm : r.method = Method.connect)
    (hhost : r.uri.authority? = some host) :
    (serve timeout r).Makes host.text
      [.dial host.text timeout, .call (.writeStatus .ok), .call .flush, .call .hijack] := by
  rw [serve_connect timeout hm hhost]
  refine ⟨_, rfl, fun dialled => ?_⟩
  cases dialled with
  | connected => exact join_makes host.text
  | _ => rfl

/-- A CONNECT request is dialled first, and the run goes on with what came of that. -/
theorem run_connect (timeout : Nat) (network : Network) (channel : Channel σ) (s : σ) {r : Request}
    {host : Authority} (hm : r.method = Method.connect) (hhost : r.uri.authority? = some host) :
    (serve timeout r).run ⟨channel, network⟩ s =
      ((proceed host.text (network.dial host.text timeout)).run ⟨channel, network⟩ s).after
        [⟨.dial host.text timeout, network.dial host.text timeout⟩] := by
  have ha : World.answer ⟨channel, network⟩ (.dial host.text timeout) s =
    .replied (network.dial host.text timeout) s := rfl
  rw [serve_connect timeout hm hhost, Program.run_perform_replied _ ha]

theorem refuse_entailed (w : World σ) (s : σ) : (refuse.run w s).entailed = [] := by
  have honly : refuse.Only (· ≠ .call .hijack) := refuse_only (by simp) (by simp)
  exact List.flatMap_eq_nil_iff.mpr fun x hx => Exchanged.entails_of_ne (honly.mem_trace w s x hx)

/-- A splice that ends well has sent what was read ahead, and then what was copied. -/
theorem splice_received {w : World σ} (host : String) (hijacked : Hijacked) {s : σ}
    (h : ((splice host hijacked).run w s).outcome = .returned (.ok ())) :
    ∃ copied, w.network.relay hijacked.connection = some copied ∧
      ((splice host hijacked).run w s).received =
        hijacked.buffered ++ copied.toBackend hijacked.connection := by
  by_cases hempty : hijacked.buffered = []
  · rw [splice_of_empty host hempty] at h ⊢
    obtain ⟨copied, t, ha, -, hrun⟩ := Program.run_perform_returned h
    refine ⟨copied, World.relay_of_replied ha, ?_⟩
    rw [hrun, hempty]
    exact List.append_nil _
  · rw [splice_of_ne host hempty] at h ⊢
    obtain ⟨forwarded, t, -, hnext, hrun⟩ := Program.run_perform_returned h
    cases forwarded with
    | error => cases hnext
    | ok _ =>
      obtain ⟨copied, u, ha, -, hrun'⟩ := Program.run_perform_returned hnext
      refine ⟨copied, World.relay_of_replied ha, ?_⟩
      rw [hrun, hrun']
      exact congrArg (hijacked.buffered ++ ·) (List.append_nil _)

/-- So has a handler that joined the client to the backend and ends well. -/
theorem join_received {w : World σ} (host : String) {s : σ}
    (h : ((join host).run w s).outcome = .returned (.ok ())) :
    ∃ hijacked copied, ⟨.call .hijack, .ok hijacked⟩ ∈ ((join host).run w s).trace ∧
      w.network.relay hijacked.connection = some copied ∧
      ((join host).run w s).received = hijacked.buffered ++ copied.toBackend hijacked.connection := by
  rw [join_eq] at h ⊢
  obtain ⟨_, t, -, hcommitted, hrun⟩ := Program.run_perform_returned h
  obtain ⟨flushed, u, -, hflushed, hrun'⟩ := Program.run_perform_returned hcommitted
  cases flushed with
  | error => cases hflushed
  | ok _ =>
    obtain ⟨answer, v, -, hsplice, hrun''⟩ := Program.run_perform_returned hflushed
    cases answer with
    | error => cases hsplice
    | ok hijacked =>
      obtain ⟨copied, hrelay, hreceived⟩ := splice_received host hijacked hsplice
      rw [hrun, hrun', hrun'']
      exact ⟨hijacked, copied, by simp, hrelay, hreceived⟩

/-- **The CONNECT handler dials before it commits anything, does all else in one order, and stops at
the first failure**, whatever the channel and the network answer. A request that asks for no tunnel is
refused by a commit of 405 and one write, and nothing else is done. Where the target has no authority
nothing is done at all; where the dial fails, nothing else. After a dial that succeeds the calls are a
commit of 200, a flush and a hijack, and after a hijack that succeeds what was read ahead is sent to the
backend and the connection is copied. At every moment what has reached the backend is a beginning of
what was read ahead and then of what the client sends, and nothing of the latter is copied before all of
the former has arrived. -/
theorem calls_in_order (timeout : Nat) (network : Network) (channel : Channel σ) (s : σ)
    (r : Request) :
    let run := (serve timeout r).run ⟨channel, network⟩ s
    (r.method ≠ Method.connect → ∀ host, run.KeepsOrder ⟨channel, network⟩ s host
      [.call (.writeStatus .methodNotAllowed), .call (.write (utf8 refusal))]) ∧
    (r.method = Method.connect → r.uri.authority? = none →
      run = ⟨.returned (.error (.invalidHost r.uri.text)), s, []⟩) ∧
    (∀ host, r.method = Method.connect → r.uri.authority? = some host →
      run.KeepsOrder ⟨channel, network⟩ s host.text
        ([.dial host.text timeout, .call (.writeStatus .ok), .call .flush, .call .hijack] ++
          run.entailed) ∧
      (run.outcome = .returned (.ok ()) → ∃ hijacked copied,
        ⟨.call .hijack, .ok hijacked⟩ ∈ run.trace ∧ network.relay hijacked.connection = some copied ∧
          run.received = hijacked.buffered ++ copied.toBackend hijacked.connection) ∧
      (∃ rest, run.trace = ⟨.dial host.text timeout, network.dial host.text timeout⟩ :: rest ∧
        ∀ x ∈ rest, ∀ host timeout, x.1 ≠ .dial host timeout) ∧
      (∀ error, network.dial host.text timeout = .failed error →
        run = ⟨.returned (.error (.connectFailed host.text error)), s,
          [⟨.dial host.text timeout, .failed error⟩]⟩) ∧
      (network.dial host.text timeout = .timedOut →
        run = ⟨.returned (.error (.connectTimedOut host.text)), s,
          [⟨.dial host.text timeout, .timedOut⟩]⟩)) ∧
    (run.received = [] ∨ ∃ hijacked, ⟨.call .hijack, .ok hijacked⟩ ∈ run.trace ∧
      run.received <+: hijacked.stream) ∧
    ∀ asked rest sent, (serve timeout r).Asks asked rest → Delivered asked sent →
      (∀ last, rest.UnderWay last → sent ++ last = [] ∨
        ∃ hijacked, ⟨.call .hijack, .ok hijacked⟩ ∈ asked ∧ sent ++ last <+: hijacked.stream) ∧
      (∀ connection next, rest = .perform (.relay connection) next →
        ∃ hijacked, ⟨.call .hijack, .ok hijacked⟩ ∈ asked ∧ connection = hijacked.connection ∧
          sent = hijacked.buffered) := by
  intro run
  refine ⟨fun hm host => ?_, fun hm hhost => ?_, fun host hm hhost => ?_, ?_, ?_⟩
  · have horder := (refuse_makes host).run ⟨channel, network⟩ s
    rw [refuse_entailed, List.append_nil, ← serve_of_not_connect timeout hm] at horder
    exact horder
  · simp only [run, serve_of_no_authority timeout hm hhost]
    rfl
  · have hrun := run_connect timeout network channel s hm hhost
    refine ⟨(serve_makes timeout hm hhost).run _ s, fun hok => ?_, ⟨_, congrArg Run.trace hrun, ?_⟩,
      fun error hdial => ?_, fun hdial => ?_⟩
    · simp only [run, hrun] at hok ⊢
      generalize network.dial host.text timeout = dialled at hok ⊢
      cases dialled with
      | connected =>
        obtain ⟨hijacked, copied, hmem, hrelay, hreceived⟩ := join_received host.text hok
        exact ⟨hijacked, copied, List.mem_cons_of_mem _ hmem, hrelay, hreceived⟩
      | _ => cases hok
    · exact (proceed_only host.text _).mem_trace _ s
    · rw [hdial] at hrun
      exact hrun
    · rw [hdial] at hrun
      exact hrun
  · obtain ⟨rest, t, hasks, -⟩ := (serve timeout r).asks_run ⟨channel, network⟩ s
    have hfed := ((serve_splices timeout r).fed hasks (delivered_received run)).1 [] rest.underWay_nil
    rw [List.append_nil] at hfed
    exact hfed
  · exact fun asked rest sent hasks hsent => (serve_splices timeout r).fed hasks hsent

/-- A request for a tunnel. -/
def toBackend : Request where
  method := Method.connect
  uri := .authority ⟨"Backend.internal:9000"⟩

/-- A network in which every host is there and all octets arrive. -/
def willing : Network :=
  ⟨fun _ _ => .connected, fun _ => .ok (), fun connection => some ⟨connection.incoming.length, []⟩⟩

/-- A client that sends ahead a part of what it has to say: the backend gets it all, in order. -/
theorem calls_in_order_ahead :
    let connection : Connection := { incoming := utf8 "bytes" }
    let run := (serve 5000 toBackend).run ⟨Stream.channel, willing⟩
      { upgrade := some (.opens ⟨connection, utf8 "early "⟩) }
    toBackend.method = Method.connect ∧
      toBackend.uri.authority? = some ⟨"Backend.internal:9000"⟩ ∧
      run.outcome = .returned (.ok ()) ∧
      run.effects = [.dial "Backend.internal:9000" 5000, .call (.writeStatus .ok), .call .flush,
        .call .hijack, .forward (utf8 "early "), .relay connection] ∧
      ∃ hijacked copied, ⟨.call .hijack, .ok hijacked⟩ ∈ run.trace ∧
        willing.relay hijacked.connection = some copied ∧
        run.received = hijacked.buffered ++ copied.toBackend hijacked.connection := by
  intro connection run
  obtain ⟨-, -, hserved, -⟩ := calls_in_order 5000 willing Stream.channel
    { upgrade := some (.opens ⟨connection, utf8 "early "⟩) } toBackend
  obtain ⟨horder, hsent, -⟩ := hserved ⟨"Backend.internal:9000"⟩ rfl rfl
  exact ⟨rfl, rfl, rfl, horder.in_order.eq_of_length rfl, hsent rfl⟩

end Connect

end UpgradeBridge
