/-
What a request comes to, whatever its pipeline does. `Settles` reads the response
off the run alone: the first effect that commits fixes it, and a run without one
is answered by how it ended. `settles_once` joins it to what the server does:
`finish` adds to a delivery only where nothing was committed, and the one head
that is handed over is that of the response.
-/
import UpgradeBridge.Proofs.Delivery

namespace UpgradeBridge

namespace Exchanged

/-- A conversation commits a status. -/
def commits (asked : List Exchanged) : Bool :=
  asked.any fun x => x.opening?.isSome

/-- The first effect of a conversation that commits, with what was asked before and after it. -/
structure Opens (asked before : List Exchanged) (x : Exchanged) (status : Status)
    (after : List Exchanged) : Prop where
  split : asked = before ++ x :: after
  uncommitted : commits before = false
  opening : x.opening? = some status

theorem opening?_of_not_commits {asked : List Exchanged} (h : commits asked = false) :
    ∀ x ∈ asked, x.opening? = none := by
  intro x hx
  simpa using List.any_eq_false.mp h x hx

theorem opens_of_commits {asked : List Exchanged} (h : commits asked = true) :
    ∃ before x status after, Opens asked before x status after := by
  induction asked with
  | nil => cases h
  | cons y asked ih =>
    cases hy : y.opening? with
    | some status => exact ⟨[], y, status, asked, rfl, rfl, hy⟩
    | none =>
      have hrest : commits asked = true := by simpa [commits, hy] using h
      obtain ⟨before, x, status, after, hsplit, huncommitted, hx⟩ := ih hrest
      have hbefore : commits (y :: before) = false := by simpa [commits, hy] using huncommitted
      exact ⟨y :: before, x, status, after, by rw [hsplit]; rfl, hbefore, hx⟩

theorem Opens.commits {asked before after : List Exchanged} {x : Exchanged} {status : Status}
    (h : Opens asked before x status after) : commits asked = true := by
  rw [h.split, Exchanged.commits, List.any_append, List.any_cons, h.opening]
  simp

theorem Opens.append {asked before after : List Exchanged} {x : Exchanged} {status : Status}
    (h : Opens asked before x status after) (more : List Exchanged) :
    Opens (asked ++ more) before x status (after ++ more) :=
  ⟨by rw [h.split, List.append_assoc, List.cons_append], h.uncommitted, h.opening⟩

theorem Opens.takeWhile_eq {asked before after : List Exchanged} {x : Exchanged} {status : Status}
    (h : Opens asked before x status after) :
    asked.takeWhile (fun y => y.opening?.isNone) = before := by
  have hbefore : ∀ y ∈ before, y.opening?.isNone = true := by
    intro y hy
    simp [opening?_of_not_commits h.uncommitted y hy]
  rw [h.split, List.takeWhile_append_of_pos hbefore]
  simp [h.opening]

theorem Opens.unique {asked before before' after after' : List Exchanged} {x x' : Exchanged}
    {status status' : Status} (h : Opens asked before x status after)
    (h' : Opens asked before' x' status' after') :
    before = before' ∧ x = x' ∧ status = status' ∧ after = after' := by
  obtain rfl : before = before' := h.takeWhile_eq.symm.trans h'.takeWhile_eq
  have hsplit := h.split.symm.trans h'.split
  obtain ⟨rfl, rfl⟩ := List.cons.inj (List.append_cancel_left hsplit)
  exact ⟨rfl, rfl, Option.some.inj (h.opening.symm.trans h'.opening), rfl⟩

end Exchanged

/-- The head of a response. -/
def Response.head (r : Response) : Head :=
  ⟨r.status, r.headers⟩

theorem Delivery.Holds.waiting {d : Delivery} {response : Response} (h : d.Holds response) :
    d.stream.slot.waiting = [response.head] := by
  rw [h.head]
  rfl

namespace Server

open Exchanged

/-- A conversation with this outcome comes to this response. -/
inductive Settles (outcome : Outcome (Except HandlerError Unit)) (asked : List Exchanged) :
    Response → Prop
  /-- The first effect that commits takes along the header fields staged until then; the body is
  what is written from it on. -/
  | committed {before after : List Exchanged} {x : Exchanged} {status : Status} :
      Opens asked before x status after →
      Settles outcome asked ⟨status, before.foldl stage ∅, (x :: after).flatMap octets⟩
  | finished : commits asked = false → outcome = .returned (.ok ()) →
      Settles outcome asked ⟨.ok, asked.foldl stage ∅, []⟩
  | failed {e : HandlerError} : commits asked = false → outcome = .returned (.error e) →
      Settles outcome asked ⟨e.status, asked.foldl stage ∅, utf8 (e.message ++ "\n")⟩
  | panicked : commits asked = false → outcome = .panicked →
      Settles outcome asked
        ⟨.internalServerError, ⟨plainText⟩, utf8 "Pipeline ended without a response"⟩
  /-- The time limit passes. -/
  | pending : commits asked = false → outcome = .pending →
      Settles outcome asked ⟨.requestTimeout, ∅, []⟩

theorem Settles.unique {outcome : Outcome (Except HandlerError Unit)} {asked : List Exchanged}
    {response response' : Response} (h : Settles outcome asked response)
    (h' : Settles outcome asked response') : response = response' := by
  cases h with
  | committed hopens =>
    cases h' with
    | committed hopens' =>
      obtain ⟨rfl, rfl, rfl, rfl⟩ := hopens.unique hopens'
      rfl
    | _ hnever => cases hopens.commits.symm.trans hnever
  | finished hnever ho =>
    cases h' with
    | committed hopens => cases hopens.commits.symm.trans hnever
    | finished => rfl
    | _ _ ho' => cases ho.symm.trans ho'
  | failed hnever ho =>
    cases h' with
    | committed hopens => cases hopens.commits.symm.trans hnever
    | failed _ ho' =>
      cases ho.symm.trans ho'
      rfl
    | _ _ ho' => cases ho.symm.trans ho'
  | panicked hnever ho =>
    cases h' with
    | committed hopens => cases hopens.commits.symm.trans hnever
    | panicked => rfl
    | _ _ ho' => cases ho.symm.trans ho'
  | pending hnever ho =>
    cases h' with
    | committed hopens => cases hopens.commits.symm.trans hnever
    | pending => rfl
    | _ _ ho' => cases ho.symm.trans ho'

section Runs

variable {run : Run Delivery (Except HandlerError Unit)} {response : Response} {staged : Headers}

theorem settle_eq (h : (settled run).Holds response) : settle run = response := by
  rw [settle, h.response?_eq]
  rfl

/-- What was committed stands. -/
theorem settled_of_committed (h : run.state.Holds response) : settled run = run.state := by
  unfold settled
  split
  · rw [finish.eq_def, if_pos h.settled.committed]
  · rfl

theorem settled_of_holds (h : run.state.Holds response) : (settled run).Holds response := by
  rw [settled_of_committed h]
  exact h

theorem settled_of_finished (h : run.state.Open staged) (ho : run.outcome = .returned (.ok ())) :
    (settled run).Holds ⟨.ok, staged, []⟩ := by
  obtain ⟨upgrade, sent, hstate⟩ := h
  rw [settled, ho, hstate]
  exact ⟨rfl, ⟨rfl, rfl⟩, rfl⟩

theorem settled_of_failed {error : HandlerError} (h : run.state.Open staged)
    (ho : run.outcome = .returned (.error error)) :
    (settled run).Holds ⟨error.status, staged, utf8 (error.message ++ "\n")⟩ := by
  obtain ⟨upgrade, sent, hstate⟩ := h
  have hbody : error.status.allowsBody = true := by cases error <;> rfl
  have hfinish : finish (.error error) { headers := staged, upgrade, sent } =
      { Stream.writeStatus error.status { headers := staged, upgrade, sent } with
        queue := [utf8 (error.message ++ "\n")] } := by
    simp [finish, Stream.isCommitted, Stream.writeStatus, Stream.write, Stream.commitIfNeeded,
      Stream.push, hbody, Stream.capacity]
  rw [settled, ho, hstate]
  simp only [hfinish]
  exact ⟨rfl, ⟨rfl, rfl⟩, List.append_nil _⟩

/-- A run that did not return leaves the answer to the server. -/
theorem settled_of_not_returned (ho : ∀ result, run.outcome ≠ .returned result) :
    settled run = run.state := by
  unfold settled
  split
  · next result houtcome => exact absurd houtcome (ho result)
  · rfl

/-- A delivery is what a conversation on a fresh one makes of it. -/
structure Told (asked : List Exchanged) (d : Delivery) : Prop where
  committed : ∀ {before x status after}, Opens asked before x status after →
    d.Holds ⟨status, before.foldl stage ∅, (x :: after).flatMap octets⟩
  never : commits asked = false → d.Open (asked.foldl stage ∅)

theorem Told.settles_of_commits (h : Told run.trace run.state) (hcommits : commits run.trace = true) :
    Settles run.outcome run.trace (settle run) ∧ run.state.Holds (settle run) := by
  obtain ⟨before, x, status, after, hopens⟩ := opens_of_commits hcommits
  have hholds := h.committed hopens
  rw [settle_eq (settled_of_holds hholds)]
  exact ⟨.committed hopens, hholds⟩

theorem Told.settles_of_returned (h : Told run.trace run.state) (hnever : commits run.trace = false)
    {result : Except HandlerError Unit} (ho : run.outcome = .returned result) :
    Settles run.outcome run.trace (settle run) ∧ (settled run).Holds (settle run) := by
  have hopen := h.never hnever
  cases result with
  | ok _ =>
    have hholds := settled_of_finished hopen ho
    rw [settle_eq hholds]
    exact ⟨.finished hnever ho, hholds⟩
  | error e =>
    have hholds := settled_of_failed hopen ho
    rw [settle_eq hholds]
    exact ⟨.failed hnever ho, hholds⟩

theorem Told.settles_of_not_returned (h : Told run.trace run.state) (hnever : commits run.trace = false)
    (ho : ∀ result, run.outcome ≠ .returned result) :
    Settles run.outcome run.trace (settle run) ∧ (settled run).response? = none := by
  have hnone : (settled run).response? = none := by
    rw [settled_of_not_returned ho]
    exact (h.never hnever).response?_eq
  refine ⟨?_, hnone⟩
  rw [settle, hnone]
  cases houtcome : run.outcome with
  | returned result => exact absurd houtcome (ho result)
  | panicked => exact .panicked hnever rfl
  | pending => exact .pending hnever rfl

theorem Told.settles (h : Told run.trace run.state) : Settles run.outcome run.trace (settle run) := by
  cases hcommits : commits run.trace with
  | true => exact (h.settles_of_commits hcommits).1
  | false =>
    by_cases ho : ∃ result, run.outcome = .returned result
    · obtain ⟨result, ho⟩ := ho
      exact (h.settles_of_returned hcommits ho).1
    · exact (h.settles_of_not_returned hcommits fun result hr => ho ⟨result, hr⟩).1

end Runs

section Conversations

variable (network : Network) (handle : Option UpgradeHandle)

theorem told_of_answers {asked : List Exchanged} {t : Delivery}
    (hw : World.Answers ⟨Delivery.channel, network⟩ (.start handle) asked t) : Told asked t := by
  have hstart := Delivery.open_start handle
  constructor
  · rintro before x status after ⟨rfl, huncommitted, hx⟩
    exact hstart.holds_after hw (opening?_of_not_commits huncommitted) hx
  · intro hnever
    exact hstart.after hw (opening?_of_not_commits hnever)

theorem told_run (q : Program (Except HandlerError Unit)) :
    let run := q.run ⟨Delivery.channel, network⟩ (.start handle)
    Told run.trace run.state := by
  obtain ⟨rest, t, -, hanswers, hstops⟩ := q.asks_run ⟨Delivery.channel, network⟩ (.start handle)
  have htold := told_of_answers network handle hanswers
  generalize q.run ⟨Delivery.channel, network⟩ (.start handle) = run at *
  obtain ⟨outcome, final, trace⟩ := run
  -- waiting for an answer changes nothing, so that the last effect does not count
  cases hstops with
  | waits ha => exact ⟨fun h => (htold.committed h).waits ha, fun h => (htold.never h).waits ha⟩
  | _ => exact htold

/-- **Every request settles to exactly one response**, whatever its pipeline does and however it
ends. The response is the one that `Settles` reads off the run. No head is handed over before the
first effect that commits, and from it on that of the response, to which the end of the pipeline adds
nothing. Where nothing is committed, a pipeline that returns has its response committed for it, and
for any other the server answers itself. -/
theorem settles_once (q : Program (Except HandlerError Unit)) :
    let run := q.run ⟨Delivery.channel, network⟩ (.start handle)
    (∀ response, Settles run.outcome run.trace response ↔ response = settle run) ∧
    (∀ asked more t, run.trace = asked ++ more →
      World.Answers ⟨Delivery.channel, network⟩ (.start handle) asked t →
      t.stream.slot.waiting = if commits asked then [(settle run).head] else []) ∧
    (commits run.trace = true → settled run = run.state ∧ run.state.Holds (settle run)) ∧
    (commits run.trace = false → ∀ result, run.outcome = .returned result →
      run.state.stream.slot.waiting = [] ∧ (settled run).Holds (settle run)) ∧
    (commits run.trace = false → (∀ result, run.outcome ≠ .returned result) →
      (settled run).response? = none) := by
  intro run
  have htold : Told run.trace run.state := told_run network handle q
  have hsettles := htold.settles
  refine ⟨fun response => ⟨fun h => h.unique hsettles, fun h => h ▸ hsettles⟩, ?_, ?_, ?_, ?_⟩
  · intro asked more t htrace hanswers
    have hearlier := told_of_answers network handle hanswers
    cases hcommits : commits asked with
    | true =>
      obtain ⟨before, x, status, after, hasked⟩ := opens_of_commits hcommits
      have hrun : Opens run.trace before x status (after ++ more) := by
        rw [htrace]
        exact hasked.append more
      have hsettle : settle run = _ := hsettles.unique (.committed hrun)
      rw [(hearlier.committed hasked).waiting, hsettle]
      rfl
    | false =>
      rw [(hearlier.never hcommits).slot]
      rfl
  · intro hcommits
    have hholds := (htold.settles_of_commits hcommits).2
    exact ⟨settled_of_committed hholds, hholds⟩
  · intro hcommits result ho
    refine ⟨?_, (htold.settles_of_returned hcommits ho).2⟩
    rw [(htold.never hcommits).slot]
    rfl
  · intro hcommits ho
    exact (htold.settles_of_not_returned hcommits ho).2

end Conversations

end Server

end UpgradeBridge
