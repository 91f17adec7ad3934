/-
A delivery in the course of a conversation. Until the first effect that commits
it is `Open`: header fields are staged, and nothing is handed over. From then on
it `Holds` a response: that effect fixed the status and the header fields, and
every chunk that is written after it joins the body.
-/
import UpgradeBridge.Proofs.Coherence
import UpgradeBridge.Proofs.ProtocolSwitch
import UpgradeBridge.Server

namespace UpgradeBridge

variable {α : Type}

/-! ## Effects on a response -/

namespace Exchanged

/-- The status that an effect commits if none was committed before: its own, or 200 where octets or
a flush come first. -/
def opening? : Exchanged → Option Status
  | ⟨.call (.writeStatus status), _⟩ => some status
  | ⟨.call (.write _), _⟩ | ⟨.call .flush, _⟩ => some .ok
  | _ => none

/-- The staged header fields after an effect. -/
def stage (h : Headers) : Exchanged → Headers
  | ⟨.call (.edit e), _⟩ => e.apply h
  | _ => h

/-- The octets that an effect adds to the body: those of a write that succeeded. -/
def octets : Exchanged → Bytes
  | ⟨.call (.write data), .ok _⟩ => data
  | _ => []

theorem octets_of_not_write {x : Exchanged} (h : ∀ data, x.1 ≠ .call (.write data)) :
    x.octets = [] := by
  obtain ⟨effect, reply⟩ := x
  cases effect with
  | call c =>
    cases c with
    | write data => exact absurd rfl (h data)
    | _ => rfl
  | _ => rfl

end Exchanged

namespace Delivery

/-- A delivery on which nothing has happened. -/
def start (handle : Option UpgradeHandle) : Delivery :=
  { stream := { upgrade := handle } }

theorem lift_state (d : Delivery) (step : Step Stream α) :
    (d.lift step).state = { d with stream := step.state }.drain := by
  cases step <;> rfl

/-! ## Before the commit -/

/-- Nothing was committed, and these header fields are staged. -/
def Open (d : Delivery) (staged : Headers) : Prop :=
  ∃ upgrade sent, d = { stream := { headers := staged, upgrade, sent } }

theorem open_start (handle : Option UpgradeHandle) : (start handle).Open ∅ :=
  ⟨handle, [], rfl⟩

theorem Open.slot {d : Delivery} {staged : Headers} (h : d.Open staged) :
    d.stream.slot = .empty := by
  obtain ⟨upgrade, sent, rfl⟩ := h
  rfl

theorem Open.response?_eq {d : Delivery} {staged : Headers} (h : d.Open staged) :
    d.response? = none := by
  rw [response?, h.slot]

/-- An effect that does not commit stages header fields at most. -/
theorem Open.answer {d t : Delivery} {staged : Headers} (h : d.Open staged) {network : Network}
    {effect : Effect} {reply : effect.Reply}
    (ha : World.answer ⟨channel, network⟩ effect d = .replied reply t)
    (hx : Exchanged.opening? ⟨effect, reply⟩ = none) :
    t.Open (Exchanged.stage staged ⟨effect, reply⟩) := by
  obtain ⟨upgrade, sent, rfl⟩ := h
  cases effect with
  | call c =>
    cases c with
    | writeStatus | write | flush => cases hx
    | _ =>
      cases ha
      exact ⟨_, _, rfl⟩
  | relay connection =>
    simp only [World.answer] at ha
    split at ha <;> cases ha
    exact ⟨_, _, rfl⟩
  | _ =>
    cases ha
    exact ⟨_, _, rfl⟩

theorem Open.waits {d t : Delivery} {staged : Headers} (h : d.Open staged) {network : Network}
    {effect : Effect} (ha : World.answer ⟨channel, network⟩ effect d = .waits t) :
    t.Open staged := by
  obtain ⟨upgrade, sent, rfl⟩ := h
  cases effect with
  | call c => cases c <;> cases ha
  | relay connection =>
    simp only [World.answer] at ha
    split at ha <;> cases ha
    exact ⟨_, _, rfl⟩
  | _ => cases ha

theorem editAll_eq (d : Delivery) (edits : List Headers.Edit) : channel.editAll d edits =
    { d with stream.headers := edits.foldl Headers.Edit.apply d.stream.headers } := by
  induction edits generalizing d with
  | nil => rfl
  | cons edit edits ih => exact ih { d with stream.headers := edit.apply d.stream.headers }

/-! ## After the commit -/

/-- This response was committed, and its head was handed over. -/
structure Holds (d : Delivery) (response : Response) : Prop where
  head : d.stream.slot = .ready ⟨response.status, response.headers⟩
  settled : d.stream.Settled
  body : d.read.flatten ++ d.stream.queue.flatten = response.body

theorem Holds.response?_eq {d : Delivery} {response : Response} (h : d.Holds response) :
    d.response? = some response := by
  rw [response?, h.head, h.body]

theorem Holds.of_sameHead {d d' : Delivery} {response : Response} (h : d.Holds response)
    (hsame : d.stream.SameHead d'.stream)
    (hbody : d'.read.flatten ++ d'.stream.queue.flatten =
      d.read.flatten ++ d.stream.queue.flatten) : d'.Holds response :=
  ⟨hsame.slot.trans h.head, hsame.settled h.settled, hbody.trans h.body⟩

theorem Holds.drain {d : Delivery} {response : Response} (h : d.Holds response) :
    d.drain.Holds response := by
  refine h.of_sameHead ⟨rfl, rfl, rfl, rfl⟩ ?_
  simp [Delivery.drain]

/-- Only octets written to the body change a response that was committed. -/
theorem Holds.answer {d : Delivery} {response : Response} (h : d.Holds response)
    (network : Network) {effect : Effect} (hwrite : ∀ data, effect ≠ .call (.write data)) :
    (World.answer ⟨channel, network⟩ effect d).state.Holds response := by
  cases effect with
  | call c =>
    cases c with
    | write data => exact absurd rfl (hwrite data)
    | headers | capabilities => exact h
    | edit e => exact h.of_sameHead ⟨rfl, rfl, rfl, rfl⟩ rfl
    | writeStatus status =>
      show Holds { d with stream := d.stream.writeStatus status } response
      rw [Stream.writeStatus_of_spent h.settled.spent]
      exact h
    | flush =>
      show Holds { d with stream := d.stream.commitIfNeeded }.drain response
      rw [Stream.commitIfNeeded_of_committed h.settled.committed]
      exact h.drain
    | hijack =>
      obtain ⟨upgrade, bodySender, hstate⟩ := d.stream.hijack_state
      show Holds (d.lift d.stream.hijack).state response
      rw [lift_state, hstate]
      exact Holds.drain (h.of_sameHead ⟨rfl, rfl, rfl, rfl⟩ rfl)
  | transmit data => exact h.of_sameHead ⟨rfl, rfl, rfl, rfl⟩ rfl
  | relay connection =>
    simp only [World.answer]
    split
    · exact h.of_sameHead ⟨rfl, rfl, rfl, rfl⟩ rfl
    · exact h
  | _ => exact h

/-- A write that succeeds appends its octets to the body, and any other one changes nothing. -/
theorem Holds.write {d : Delivery} {response : Response} (h : d.Holds response) (data : Bytes) :
    (∃ count, ∃ t : Delivery, channel.write data d = .replied (.ok count) t ∧
      t.Holds { response with body := response.body ++ data }) ∨
    (∃ e, ∃ t : Delivery, channel.write data d = .replied (.error e) t ∧ t.Holds response) ∨
    (∃ t : Delivery, channel.write data d = .waits t ∧ t.Holds response) := by
  have hwrite : channel.write data d = d.lift (d.stream.push data) := by
    show d.lift (d.stream.commitIfNeeded.push data) = _
    rw [Stream.commitIfNeeded_of_committed h.settled.committed]
  rw [hwrite]
  rcases Stream.push_cases h.settled data with ⟨-, status, -, hpush⟩ | ⟨-, -, hpush⟩ |
    ⟨-, -, -, hpush⟩ | ⟨-, -, -, hpush⟩ <;> rw [hpush]
  · exact .inr (.inl ⟨_, _, rfl, h.drain⟩)
  · exact .inr (.inl ⟨_, _, rfl, h.drain⟩)
  · refine .inl ⟨_, _, rfl, h.head, ⟨h.settled.committed, h.settled.spent⟩, ?_⟩
    simp [Delivery.drain, ← h.body]
  · exact .inr (.inr ⟨_, rfl, h.drain⟩)

theorem Holds.replied {d t : Delivery} {response : Response} (h : d.Holds response)
    {network : Network} {effect : Effect} {reply : effect.Reply}
    (ha : World.answer ⟨channel, network⟩ effect d = .replied reply t) :
    t.Holds { response with body := response.body ++ Exchanged.octets ⟨effect, reply⟩ } := by
  by_cases hwrite : ∃ data, effect = .call (.write data)
  · obtain ⟨data, rfl⟩ := hwrite
    have ha : channel.write data d = .replied reply t := ha
    rcases h.write data with ⟨count, u, hstep, hu⟩ | ⟨e, u, hstep, hu⟩ | ⟨u, hstep, -⟩
    · cases hstep.symm.trans ha
      exact hu
    · cases hstep.symm.trans ha
      rw [show Exchanged.octets ⟨.call (.write data), .error e⟩ = [] from rfl, List.append_nil]
      exact hu
    · cases hstep.symm.trans ha
  · have hwrite : ∀ data, effect ≠ .call (.write data) := fun data heq => hwrite ⟨data, heq⟩
    have hstep := h.answer network hwrite
    rw [ha] at hstep
    rw [Exchanged.octets_of_not_write hwrite, List.append_nil]
    exact hstep

theorem Holds.waits {d t : Delivery} {response : Response} (h : d.Holds response)
    {network : Network} {effect : Effect}
    (ha : World.answer ⟨channel, network⟩ effect d = .waits t) : t.Holds response := by
  by_cases hwrite : ∃ data, effect = .call (.write data)
  · obtain ⟨data, rfl⟩ := hwrite
    have ha : channel.write data d = .waits t := ha
    rcases h.write data with ⟨_, u, hstep, -⟩ | ⟨_, u, hstep, -⟩ | ⟨u, hstep, hu⟩
    · cases hstep.symm.trans ha
    · cases hstep.symm.trans ha
    · cases hstep.symm.trans ha
      exact hu
  · have hstep := h.answer network fun data heq => hwrite ⟨data, heq⟩
    rw [ha] at hstep
    exact hstep

/-! ## The commit -/

/-- A commit on a delivery that nothing was written to. -/
theorem holds_writeStatus (handle : Option UpgradeHandle) (headers : Headers) (status : Status) :
    (channel.writeStatus status { stream := { upgrade := handle, headers } }).Holds
      ⟨status, headers, []⟩ :=
  ⟨rfl, ⟨rfl, rfl⟩, rfl⟩

/-- The first effect that commits hands a head over with the header fields staged until then. -/
theorem Open.commit {d t : Delivery} {staged : Headers} {status : Status} (h : d.Open staged)
    {network : Network} {effect : Effect} {reply : effect.Reply}
    (ha : World.answer ⟨channel, network⟩ effect d = .replied reply t)
    (hx : Exchanged.opening? ⟨effect, reply⟩ = some status) :
    t.Holds ⟨status, staged, Exchanged.octets ⟨effect, reply⟩⟩ := by
  obtain ⟨upgrade, sent, rfl⟩ := h
  cases effect with
  | call c =>
    cases c with
    | writeStatus | flush =>
      cases hx
      cases ha
      exact ⟨rfl, ⟨rfl, rfl⟩, rfl⟩
    | write data =>
      cases hx
      cases ha
      refine ⟨rfl, ⟨rfl, rfl⟩, ?_⟩
      show [data].flatten ++ [] = data
      simp
    | _ => cases hx
  | _ => cases hx

/-! ## Conversations -/

theorem Open.after {network : Network} {d t : Delivery} {asked : List Exchanged}
    (hw : World.Answers ⟨channel, network⟩ d asked t) {staged : Headers} (h : d.Open staged)
    (hquiet : ∀ x ∈ asked, x.opening? = none) : t.Open (asked.foldl Exchanged.stage staged) := by
  induction hw generalizing staged with
  | nil => exact h
  | cons ha _ ih =>
    have hstep := h.answer ha (hquiet _ (by simp))
    exact ih hstep fun x hx => hquiet x (by simp [hx])

theorem Holds.after {network : Network} {d t : Delivery} {asked : List Exchanged}
    (hw : World.Answers ⟨channel, network⟩ d asked t) {response : Response} (h : d.Holds response) :
    t.Holds { response with body := response.body ++ asked.flatMap Exchanged.octets } := by
  induction hw generalizing response with
  | nil =>
    rw [List.flatMap_nil, List.append_nil]
    exact h
  | cons ha _ ih =>
    rw [List.flatMap_cons, ← List.append_assoc]
    exact ih (h.replied ha)

/-- From the first effect that commits on, a delivery holds the response that this effect opened. -/
theorem Open.holds_after {network : Network} {d t : Delivery} {before after : List Exchanged}
    {x : Exchanged} {status : Status} {staged : Headers} (h : d.Open staged)
    (hw : World.Answers ⟨channel, network⟩ d (before ++ x :: after) t)
    (hquiet : ∀ y ∈ before, y.opening? = none) (hx : x.opening? = some status) :
    t.Holds ⟨status, before.foldl Exchanged.stage staged, (x :: after).flatMap Exchanged.octets⟩ := by
  obtain ⟨u, hbefore, hrest⟩ := hw.split
  have hopen := h.after hbefore hquiet
  cases hrest with
  | cons ha hafter =>
    have hcommit := hopen.commit ha hx
    rw [List.flatMap_cons]
    exact hcommit.after hafter

end Delivery

end UpgradeBridge
