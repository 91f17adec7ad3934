/-
Runs of an exchange, in which the channel's side and the receiver's side move in
any order. Until the first move that commits, the exchange is `Open`: header
fields are staged and nothing is handed over. From then on it is `Sealed`: the
status and the head are what that move made them.
-/
import UpgradeBridge.Proofs.Stream

namespace UpgradeBridge

/-- The head that waits in a slot for its receiver, if there is one. -/
def Slot.waiting : Slot → List Head
  | .ready head => [head]
  | _ => []

namespace Exchange

/-- The head that a step hands to the receiver. -/
def Result.head? : Result → Option Head
  | .head h => some h
  | _ => none

namespace Move

/-- The status that a move commits if none was committed before. -/
def commit? : Move → Option Status
  | .act action => action.commit?
  | _ => none

/-- What a move makes of the staged header fields if nothing was committed before. -/
def stage (h : Headers) : Move → Headers
  | .act action => action.stage h
  | _ => h

/-- The move does not commit, and the channel's side is still there after it. -/
def Quiet (m : Move) : Prop :=
  m.commit? = none ∧ m ≠ .dropChannel

/-- A move that commits does it by the call for that status, or commits 200 by another call. -/
theorem eq_of_commit? {m : Move} {status : Status} (h : m.commit? = some status) :
    m = .act (.status status) ∨ status = .ok ∧ m ≠ .act (.status .ok) := by
  cases m with
  | act a =>
    cases a with
    | status => exact .inl (by cases h; rfl)
    | write | flush => exact .inr ⟨by cases h; rfl, by simp⟩
    | _ => cases h
  | _ => cases h

end Move

/-- An exchange in which nothing has happened. -/
def start (upgrade : Option UpgradeHandle) : Exchange :=
  { stream := { upgrade } }

/-- The exchange after some moves. -/
def after (e : Exchange) (moves : List Move) : Exchange :=
  moves.foldl (fun e m => (e.step m).2) e

/-- The heads that the receiver is handed in the course of some moves. -/
def heads : Exchange → List Move → List Head
  | _, [] => []
  | e, m :: moves => (e.step m).1.head?.toList ++ heads (e.step m).2 moves

theorem after_append (e : Exchange) (moves more : List Move) :
    e.after (moves ++ more) = (e.after moves).after more :=
  List.foldl_append

theorem heads_append (e : Exchange) (moves more : List Move) :
    e.heads (moves ++ more) = e.heads moves ++ (e.after moves).heads more := by
  induction moves generalizing e with
  | nil => rfl
  | cons m moves ih =>
    simp only [List.cons_append, heads, ih, List.append_assoc]
    rfl

/-! ## Single moves -/

/-- What the channel's side does is what its action does to the stream, and it hands over no head. -/
theorem act_of_present {e : Exchange} (h : e.present = true) (a : Action) :
    (e.act a).2 = { e with stream := (a.program.run world e.stream).state } ∧
      (e.act a).1.head? = none := by
  simp only [act, h, if_true]
  split <;> exact ⟨rfl, rfl⟩

theorem act_of_not_present {e : Exchange} (h : e.present = false) (a : Action) :
    e.act a = (.absent, e) := by
  simp [act, h]

/-- A move is an action, the end of the channel's side, or one of the receiver's side. -/
theorem Move.side (m : Move) :
    (∃ a, m = .act a) ∨ m = .dropChannel ∨ (∀ a, m ≠ .act a) ∧ m ≠ .dropChannel := by
  cases m with
  | act a => exact .inl ⟨a, rfl⟩
  | dropChannel => exact .inr (.inl rfl)
  | _ => exact .inr (.inr ⟨by simp, by simp⟩)

/-- The receiver's side works on the slot, the reader and the queue only. -/
theorem step_receiver (e : Exchange) {m : Move} (hact : ∀ a, m ≠ .act a) (hdrop : m ≠ .dropChannel) :
    ∃ slot reader queue, (e.step m).2 =
      { e with stream := { e.stream with slot := slot, reader := reader, queue := queue } } := by
  cases m with
  | act a => exact absurd rfl (hact a)
  | takeHead =>
    simp only [step, takeHead]
    split <;> exact ⟨_, _, _, rfl⟩
  | read =>
    simp only [step, read]
    split
    · split
      · exact ⟨_, _, _, rfl⟩
      · split <;> exact ⟨_, _, _, rfl⟩
    · exact ⟨_, _, _, rfl⟩
  | dropHead =>
    simp only [step, dropHead]
    split <;> exact ⟨_, _, _, rfl⟩
  | dropBody =>
    simp only [step, dropBody]
    split <;> exact ⟨_, _, _, rfl⟩
  | dropChannel => exact absurd rfl hdrop

/-- The receiver's side leaves the channel's side alone. -/
structure SameSide (e e' : Exchange) : Prop where
  present : e'.present = e.present
  headers : e'.stream.headers = e.stream.headers
  headSender : e'.stream.headSender = e.stream.headSender
  status : e'.stream.status = e.stream.status

theorem step_sameSide (e : Exchange) {m : Move} (hact : ∀ a, m ≠ .act a) (hdrop : m ≠ .dropChannel) :
    SameSide e (e.step m).2 := by
  obtain ⟨slot, reader, queue, hstep⟩ := e.step_receiver hact hdrop
  rw [hstep]
  exact ⟨rfl, rfl, rfl, rfl⟩

/-- What a step makes of the slot of the head, and the head that it hands over. -/
theorem step_slot (e : Exchange) {m : Move} (hact : ∀ a, m ≠ .act a) :
    ((e.step m).2.stream.slot = match m, e.stream.slot with
      | .takeHead, .ready _ => .taken
      | .dropHead, _ => .gone
      | _, slot => slot) ∧
    (e.step m).1.head? = match m, e.stream.slot with
      | .takeHead, .ready head => some head
      | _, _ => none := by
  cases m with
  | act a => exact absurd rfl (hact a)
  | takeHead =>
    cases h : e.stream.slot <;> cases hs : e.stream.headSender <;>
      simp [step, takeHead, h, hs, Result.head?]
  | read =>
    simp only [step, read]
    split
    · split
      · exact ⟨rfl, rfl⟩
      · split <;> exact ⟨rfl, rfl⟩
    · exact ⟨rfl, rfl⟩
  | dropHead => cases h : e.stream.slot <;> simp [step, dropHead, h, Result.head?]
  | dropBody =>
    simp only [step, dropBody]
    split <;> exact ⟨rfl, rfl⟩
  | dropChannel => exact ⟨rfl, rfl⟩

/-- A head that waits is handed to the receiver that takes it, once. -/
theorem step_takeHead_of_ready {e : Exchange} {head : Head} (h : e.stream.slot = .ready head) :
    (e.step .takeHead).1 = .head head ∧ (e.step .takeHead).2.stream.slot = .taken := by
  simp [step, takeHead, h]

/-! ## Before the commit -/

/-- Nothing was committed, and these header fields are staged; the receiver may be gone. -/
structure Open (e : Exchange) (staged : Headers) (gone : Bool) : Prop where
  present : e.present = true
  headSender : e.stream.headSender = true
  status : e.stream.status = none
  headers : e.stream.headers = staged
  slot : e.stream.slot = if gone then .gone else .empty

theorem open_start (upgrade : Option UpgradeHandle) : (start upgrade).Open ∅ false :=
  ⟨rfl, rfl, rfl, rfl, rfl⟩

theorem Open.isCommitted {e : Exchange} {staged : Headers} {gone : Bool} (h : e.Open staged gone) :
    e.stream.isCommitted = false := by
  rw [Stream.isCommitted, h.status]
  rfl

/-- A move that does not commit only stages header fields or drops the receiver. -/
theorem Open.step {e : Exchange} {staged : Headers} {gone : Bool} (h : e.Open staged gone)
    {m : Move} (hm : m.Quiet) :
    (e.step m).2.Open (m.stage staged) (gone || decide (m = .dropHead)) ∧
      (e.step m).1.head? = none := by
  by_cases hact : ∃ a, m = .act a
  · obtain ⟨a, rfl⟩ := hact
    obtain ⟨hstate, hhead⟩ := act_of_present h.present a
    refine ⟨?_, hhead⟩
    rw [Exchange.step, hstate, Stream.run_action_of_not_committed h.isCommitted hm.1]
    refine ⟨h.present, h.headSender, h.status, ?_, by simpa using h.slot⟩
    rw [← h.headers]
    rfl
  · have hact : ∀ a, m ≠ .act a := fun a ha => hact ⟨a, ha⟩
    have hside := step_sameSide e hact hm.2
    obtain ⟨hslot, hhead⟩ := step_slot e hact
    rw [h.slot] at hslot hhead
    refine ⟨⟨hside.present.trans h.present, hside.headSender.trans h.headSender,
      hside.status.trans h.status, ?_, ?_⟩, ?_⟩
    · rw [hside.headers, h.headers]
      cases m <;> first | rfl | exact absurd rfl (hact _)
    · rw [hslot]
      cases m <;> cases gone <;> simp
    · rw [hhead]
      cases m <;> cases gone <;> rfl

theorem Open.after {e : Exchange} {staged : Headers} {gone : Bool} {moves : List Move}
    (h : e.Open staged gone) (hm : ∀ m ∈ moves, m.Quiet) :
    (e.after moves).Open (moves.foldl Move.stage staged) (gone || decide (.dropHead ∈ moves)) ∧
      e.heads moves = [] := by
  induction moves generalizing e staged gone with
  | nil => simpa using ⟨h, rfl⟩
  | cons m moves ih =>
    obtain ⟨hstep, hhead⟩ := h.step (hm m (by simp))
    obtain ⟨hopen, hheads⟩ := ih hstep fun x hx => hm x (by simp [hx])
    refine ⟨?_, by simp [heads, hhead, hheads]⟩
    have hgone : (gone || decide (.dropHead ∈ m :: moves)) =
        (gone || decide (m = .dropHead) || decide (.dropHead ∈ moves)) := by
      simp [Bool.or_assoc, eq_comm]
    rw [hgone]
    exact hopen

/-! ## After the commit -/

/-- Nothing can be committed any more: something was, or the channel's side is gone. -/
structure Sealed (e : Exchange) : Prop where
  spent : e.stream.headSender = false
  settled : e.present = true → e.stream.Settled

/-- A step keeps the status. The head that waits for the receiver goes on waiting or is handed over,
unless the receiver is dropped. -/
theorem Sealed.step {e : Exchange} (h : e.Sealed) (m : Move) :
    (e.step m).2.Sealed ∧ (e.step m).2.stream.status = e.stream.status ∧
      (e.step m).1.head?.toList ++ (e.step m).2.stream.slot.waiting =
        if m = .dropHead then [] else e.stream.slot.waiting := by
  by_cases hact : ∃ a, m = .act a
  · obtain ⟨a, rfl⟩ := hact
    rw [Exchange.step]
    cases hpresent : e.present with
    | true =>
      obtain ⟨hstate, hhead⟩ := act_of_present hpresent a
      have hsame := Stream.run_sameHead (n := world.network) a.program (h.settled hpresent)
      rw [hstate, hhead]
      refine ⟨⟨hsame.headSender.trans h.spent, fun _ => hsame.settled (h.settled hpresent)⟩,
        hsame.status, ?_⟩
      rw [show (a.program.run world e.stream).state.slot = e.stream.slot from hsame.slot]
      rfl
    | false =>
      rw [act_of_not_present hpresent]
      exact ⟨h, rfl, rfl⟩
  · have hact : ∀ a, m ≠ .act a := fun a ha => hact ⟨a, ha⟩
    obtain ⟨hslot, hhead⟩ := step_slot e hact
    have hheads : (e.step m).1.head?.toList ++ (e.step m).2.stream.slot.waiting =
        if m = .dropHead then [] else e.stream.slot.waiting := by
      rw [hslot, hhead]
      cases m <;> cases e.stream.slot <;> simp [Slot.waiting]
    by_cases hdrop : m = .dropChannel
    · subst hdrop
      exact ⟨⟨rfl, by simp [Exchange.step, dropChannel]⟩, rfl, hheads⟩
    · have hside := step_sameSide e hact hdrop
      refine ⟨⟨hside.headSender.trans h.spent, fun hpresent => ⟨?_, hside.headSender.trans h.spent⟩⟩,
        hside.status, hheads⟩
      rw [Stream.isCommitted, hside.status]
      exact (h.settled (hside.present ▸ hpresent)).committed

theorem Sealed.after {e : Exchange} (h : e.Sealed) (moves : List Move) :
    (e.after moves).Sealed ∧ (e.after moves).stream.status = e.stream.status := by
  induction moves generalizing e with
  | nil => exact ⟨h, rfl⟩
  | cons m moves ih =>
    obtain ⟨hstep, hstatus, -⟩ := h.step m
    obtain ⟨hsealed, hstatuses⟩ := ih hstep
    exact ⟨hsealed, hstatuses.trans hstatus⟩

/-- Only the head that waits is handed over or goes on waiting. -/
theorem Sealed.heads_sublist {e : Exchange} (h : e.Sealed) (moves : List Move) :
    (e.heads moves ++ (e.after moves).stream.slot.waiting).Sublist e.stream.slot.waiting := by
  induction moves generalizing e with
  | nil => exact List.Sublist.refl _
  | cons m moves ih =>
    obtain ⟨hstep, -, hheads⟩ := h.step m
    rw [heads, List.append_assoc]
    refine ((ih hstep).append_left _).trans ?_
    rw [hheads]
    split
    · exact List.nil_sublist _
    · exact List.Sublist.refl _

/-- A receiver that is not dropped is handed the head that waits, or can still have it. -/
theorem Sealed.heads_eq {e : Exchange} (h : e.Sealed) {moves : List Move} (hd : .dropHead ∉ moves) :
    e.heads moves ++ (e.after moves).stream.slot.waiting = e.stream.slot.waiting := by
  induction moves generalizing e with
  | nil => rfl
  | cons m moves ih =>
    rw [List.mem_cons, not_or] at hd
    obtain ⟨hstep, -, hheads⟩ := h.step m
    rw [if_neg (Ne.symm hd.1)] at hheads
    rw [heads, List.append_assoc, ← hheads, ← ih hstep hd.2]
    rfl

/-! ## The commit -/

/-- The first move that commits: it hands the head over with the staged header fields, if there is a
receiver, and leaves nothing staged. -/
theorem Open.commit {e : Exchange} {staged : Headers} {gone : Bool} (h : e.Open staged gone)
    {m : Move} {status : Status} (hm : m.commit? = some status) :
    (e.step m).2.Sealed ∧ (e.step m).2.stream.status = some status ∧
      (e.step m).2.stream.headers = ∅ ∧
      (e.step m).2.stream.slot = (if gone then .gone else .ready ⟨status, staged⟩) ∧
      (e.step m).1.head? = none := by
  cases m with
  | act a =>
    obtain ⟨hstate, hhead⟩ := act_of_present h.present a
    obtain ⟨queue, hrun⟩ := Stream.run_action_of_commit h.isCommitted hm
    rw [Exchange.step, hstate, hrun, Stream.writeStatus_of_headSender h.headSender, h.slot, h.headers]
    refine ⟨⟨rfl, fun _ => ⟨rfl, rfl⟩⟩, rfl, rfl, ?_, hhead⟩
    cases gone <;> rfl
  | _ => cases hm

/-- The first move of a run that commits, with the status that it commits. -/
structure FirstCommit (moves before : List Move) (m : Move) (status : Status)
    (rest : List Move) : Prop where
  split : moves = before ++ m :: rest
  quiet : ∀ x ∈ before, x.Quiet
  commits : m.commit? = some status

/-- The header fields that some moves stage. -/
def staged (moves : List Move) : Headers :=
  moves.foldl Move.stage ∅

/-- Nothing is committed in a run: no move commits and the channel's side stays, or the channel's side
goes before a move commits. -/
def NeverCommits (moves : List Move) : Prop :=
  (∀ m ∈ moves, m.Quiet) ∨
    ∃ before rest, moves = before ++ .dropChannel :: rest ∧ ∀ m ∈ before, m.Quiet

theorem firstCommit_or_never (moves : List Move) :
    (∃ before m status rest, FirstCommit moves before m status rest) ∨ NeverCommits moves := by
  induction moves with
  | nil => exact .inr (.inl (by simp))
  | cons m moves ih =>
    by_cases hdrop : m = .dropChannel
    · exact .inr (.inr ⟨[], moves, by simp [hdrop], by simp⟩)
    cases hcommit : m.commit? with
    | some status => exact .inl ⟨[], m, status, moves, rfl, by simp, hcommit⟩
    | none =>
      have hcons : ∀ {before : List Move}, (∀ x ∈ before, x.Quiet) → ∀ x ∈ m :: before, x.Quiet :=
        fun h => List.forall_mem_cons.mpr ⟨⟨hcommit, hdrop⟩, h⟩
      rcases ih with ⟨before, m', status, rest, hfirst⟩ | hquiet | ⟨before, rest, hsplit, hquiet⟩
      · exact .inl ⟨m :: before, m', status, rest, by rw [hfirst.split]; rfl, hcons hfirst.quiet,
          hfirst.commits⟩
      · exact .inr (.inl (hcons hquiet))
      · exact .inr (.inr ⟨m :: before, rest, by rw [hsplit]; rfl, hcons hquiet⟩)

/-- If nothing was committed, nothing is after the channel's side is gone. -/
theorem Open.dropChannel {e : Exchange} {staged : Headers} {gone : Bool} (h : e.Open staged gone)
    (moves : List Move) :
    (e.after (.dropChannel :: moves)).stream.status = none ∧
      e.heads (.dropChannel :: moves) ++
        (e.after (.dropChannel :: moves)).stream.slot.waiting = [] := by
  have hsealed : (e.step .dropChannel).2.Sealed := ⟨rfl, by simp [Exchange.step, Exchange.dropChannel]⟩
  have hslot : (e.step .dropChannel).2.stream.slot.waiting = [] := by
    rw [show (e.step .dropChannel).2.stream.slot = e.stream.slot from rfl, h.slot]
    cases gone <;> rfl
  have hsub := hsealed.heads_sublist moves
  rw [hslot, List.sublist_nil] at hsub
  exact ⟨(hsealed.after moves).2.trans h.status, hsub⟩

/-- A run in which nothing commits leaves the exchange uncommitted. -/
theorem NeverCommits.uncommitted {moves : List Move} (h : NeverCommits moves)
    (upgrade : Option UpgradeHandle) :
    ((start upgrade).after moves).stream.status = none ∧
      (start upgrade).heads moves ++ ((start upgrade).after moves).stream.slot.waiting = [] := by
  rcases h with hquiet | ⟨before, rest, rfl, hquiet⟩
  · obtain ⟨hopen, hheads⟩ := (open_start upgrade).after hquiet
    refine ⟨hopen.status, ?_⟩
    rw [hheads, hopen.slot]
    split <;> rfl
  · obtain ⟨hopen, hheads⟩ := (open_start upgrade).after hquiet
    rw [after_append, heads_append, hheads, List.nil_append]
    exact hopen.dropChannel rest

theorem after_snoc (e : Exchange) (moves : List Move) (m : Move) :
    e.after (moves ++ [m]) = ((e.after moves).step m).2 :=
  after_append e moves [m]

namespace FirstCommit

variable {upgrade : Option UpgradeHandle} {moves before rest : List Move} {m : Move}
  {status : Status}

/-- The exchange right after the first commit. -/
theorem committed (h : FirstCommit moves before m status rest) (upgrade : Option UpgradeHandle) :
    ((start upgrade).after (before ++ [m])).Sealed ∧
      ((start upgrade).after (before ++ [m])).stream.status = some status ∧
      ((start upgrade).after (before ++ [m])).stream.headers = ∅ ∧
      ((start upgrade).after (before ++ [m])).stream.slot =
        (if .dropHead ∈ before then .gone else .ready ⟨status, staged before⟩) ∧
      (start upgrade).heads (before ++ [m]) = [] := by
  obtain ⟨hopen, hheads⟩ := (open_start upgrade).after h.quiet
  obtain ⟨hsealed, hstatus, hheaders, hslot, hhead⟩ := hopen.commit h.commits
  rw [after_snoc, heads_append, hheads]
  refine ⟨hsealed, hstatus, hheaders, ?_, by simp [heads, hhead]⟩
  rw [hslot]
  simp [staged]

/-- The status stands exactly from the first commit on. -/
theorem status_take (h : FirstCommit moves before m status rest) (n : Nat) :
    ((start upgrade).after (moves.take n)).stream.status =
      if n ≤ before.length then none else some status := by
  rw [h.split]
  by_cases hn : n ≤ before.length
  · rw [if_pos hn, List.take_append_of_le_length hn]
    have hquiet : ∀ x ∈ before.take n, x.Quiet := fun x hx => h.quiet x (List.mem_of_mem_take hx)
    exact ((open_start upgrade).after hquiet).1.status
  · -- the first commit is among these moves, and what follows it is sealed
    obtain ⟨k, hk⟩ : ∃ k, n = (before ++ [m]).length + k :=
      ⟨n - (before.length + 1), by simp; omega⟩
    rw [if_neg hn, List.append_cons, hk, List.take_length_add_append, after_append]
    obtain ⟨hsealed, hstatus, -⟩ := h.committed upgrade
    exact (hsealed.after _).2.trans hstatus

/-- No head but the committed one is handed over or waits. -/
theorem heads_sublist (h : FirstCommit moves before m status rest) :
    ((start upgrade).heads moves ++ ((start upgrade).after moves).stream.slot.waiting).Sublist
      (if .dropHead ∈ before then [] else [⟨status, staged before⟩]) := by
  obtain ⟨hsealed, -, -, hslot, hheads⟩ := h.committed upgrade
  have hsub := hsealed.heads_sublist rest
  rw [h.split, List.append_cons, heads_append, after_append _ (before ++ [m]), hheads,
    List.nil_append]
  refine hsub.trans ?_
  rw [hslot]
  split <;> exact List.Sublist.refl _

/-- A head that waits is the committed one. -/
theorem eq_of_ready (h : FirstCommit moves before m status rest) {head : Head}
    (hready : ((start upgrade).after moves).stream.slot = .ready head) :
    head = ⟨status, staged before⟩ := by
  have hwaits : head ∈
      (start upgrade).heads moves ++ ((start upgrade).after moves).stream.slot.waiting := by
    simp [hready, Slot.waiting]
  have hmem := h.heads_sublist.subset hwaits
  split at hmem
  · cases hmem
  · exact List.mem_singleton.mp hmem

/-- A receiver that is never dropped is handed the committed head, or can still have it. -/
theorem heads_eq (h : FirstCommit moves before m status rest) (hd : .dropHead ∉ moves) :
    (start upgrade).heads moves ++ ((start upgrade).after moves).stream.slot.waiting =
      [⟨status, staged before⟩] := by
  obtain ⟨hsealed, -, -, hslot, hheads⟩ := h.committed upgrade
  rw [h.split, List.mem_append, List.mem_cons, not_or, not_or] at hd
  rw [h.split, List.append_cons, heads_append, after_append _ (before ++ [m]), hheads,
    List.nil_append, hsealed.heads_eq hd.2.2, hslot, if_neg hd.1]
  rfl

end FirstCommit

/-- **A response is committed once, and its head is frozen then.** In any run of both sides either
nothing commits, and no head is handed over; or there is a first move that commits. Exactly from that
move on the status is the committed one; right after it nothing is staged, and the head with the
header fields staged before waits for the receiver, unless the receiver was dropped before; and no
other head is ever handed over or waits. A receiver that is not dropped at all has it or can still have
it, and one that takes the head while it waits is handed that head. -/
theorem head_frozen (upgrade : Option UpgradeHandle) (moves : List Move) :
    ((∀ before m status rest, ¬ FirstCommit moves before m status rest) ∧
      ((start upgrade).after moves).stream.status = none ∧
      (start upgrade).heads moves = [] ∧
      ((start upgrade).after moves).stream.slot.waiting = []) ∨
    ∃ before m status rest, FirstCommit moves before m status rest ∧
      (∀ n, ((start upgrade).after (moves.take n)).stream.status =
        if n ≤ before.length then none else some status) ∧
      ((start upgrade).after before).stream.headers = staged before ∧
      ((start upgrade).after (before ++ [m])).stream.headers = ∅ ∧
      ((start upgrade).after (before ++ [m])).stream.slot =
        (if .dropHead ∈ before then .gone else .ready ⟨status, staged before⟩) ∧
      ((start upgrade).heads moves ++ ((start upgrade).after moves).stream.slot.waiting).Sublist
        (if .dropHead ∈ before then [] else [⟨status, staged before⟩]) ∧
      (.dropHead ∉ moves →
        (start upgrade).heads moves ++ ((start upgrade).after moves).stream.slot.waiting =
          [⟨status, staged before⟩]) ∧
      (∀ head, ((start upgrade).after moves).stream.slot = .ready head →
        head = ⟨status, staged before⟩ ∧
          (((start upgrade).after moves).step .takeHead).1 = .head head ∧
          (((start upgrade).after moves).step .takeHead).2.stream.slot = .taken) := by
  by_cases hfirst : ∃ before m status rest, FirstCommit moves before m status rest
  · obtain ⟨before, m, status, rest, hfirst⟩ := hfirst
    obtain ⟨-, -, hheaders, hslot, -⟩ := hfirst.committed upgrade
    obtain ⟨hopen, -⟩ := (open_start upgrade).after hfirst.quiet
    exact .inr ⟨before, m, status, rest, hfirst, hfirst.status_take, hopen.headers, hheaders, hslot,
      hfirst.heads_sublist, hfirst.heads_eq, fun head hready =>
        ⟨hfirst.eq_of_ready hready, step_takeHead_of_ready hready⟩⟩
  · have hfirst : ∀ before m status rest, ¬ FirstCommit moves before m status rest :=
      fun before m status rest h => hfirst ⟨before, m, status, rest, h⟩
    have hnever := (firstCommit_or_never moves).resolve_left
      fun ⟨before, m, status, rest, h⟩ => hfirst before m status rest h
    obtain ⟨hstatus, hnone⟩ := hnever.uncommitted upgrade
    obtain ⟨hheads, hslot⟩ := List.append_eq_nil_iff.mp hnone
    exact .inl ⟨hfirst, hstatus, hheads, hslot⟩

end Exchange

end UpgradeBridge
