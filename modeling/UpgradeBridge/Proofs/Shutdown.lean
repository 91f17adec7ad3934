/-
Shutdown signals as one receiver is told of them.

The moves of a run say which handles and receivers are there, what comes of each
move, and how many signals a receiver has not read (`comesOf`). The state keeps
to that: `Attended` for handles and receivers, `Tallies` for the account of a
receiver. So what a receiver is told depends on nothing that is not in its
account. A signal that is sent to a receiver stays due until the receiver gets it
(`IsDue`). All of this is read off `Steps`, which tells once what a move can do.
-/
import UpgradeBridge.Proofs.Account

namespace UpgradeBridge.Shutdown

/-- The state after some moves. -/
def after (s : Shutdown) (moves : List Move) : Shutdown :=
  moves.foldl (fun s m => (s.step m).2) s

/-- Some moves with what came of each. -/
def history : Shutdown → List Move → List (Move × Result)
  | _, [] => []
  | s, m :: moves => (m, (s.step m).1) :: history (s.step m).2 moves

theorem after_append (s : Shutdown) (moves more : List Move) :
    s.after (moves ++ more) = (s.after moves).after more :=
  List.foldl_append

theorem after_snoc (s : Shutdown) (moves : List Move) (m : Move) :
    s.after (moves ++ [m]) = ((s.after moves).step m).2 :=
  s.after_append moves [m]

/-! ## Receivers -/

/-- How many signals a receiver has behind it, if it is there. -/
def read? (s : Shutdown) (i : Nat) : Option Nat :=
  s.receivers.getD i none

/-- The receiver has so many signals behind it. -/
def setRead (s : Shutdown) (i read : Nat) : Shutdown :=
  { s with receivers := s.receivers.set i (some read) }

@[simp] theorem setRead_sent (s : Shutdown) (i read : Nat) : (s.setRead i read).sent = s.sent := rfl
@[simp] theorem setRead_handles (s : Shutdown) (i read : Nat) :
    (s.setRead i read).handles = s.handles := rfl

theorem lt_of_read? {s : Shutdown} {i read : Nat} (h : s.read? i = some read) :
    i < s.receivers.length := by
  by_contra hi
  rw [read?, List.getD_eq_default _ _ (by omega)] at h
  cases h

theorem any_isSome_iff (s : Shutdown) :
    s.receivers.any Option.isSome = true ↔ ∃ i read, s.read? i = some read := by
  rw [List.any_eq_true]
  constructor
  · rintro ⟨x, hmem, hx⟩
    obtain ⟨i, hi, rfl⟩ := List.getElem_of_mem hmem
    obtain ⟨read, hread⟩ := Option.isSome_iff_exists.mp hx
    exact ⟨i, read, by rw [read?, List.getD_eq_getElem _ _ hi, hread]⟩
  · rintro ⟨i, read, hread⟩
    have hlt := lt_of_read? hread
    rw [read?, List.getD_eq_getElem _ _ hlt] at hread
    exact ⟨_, List.getElem_mem hlt, by simp [hread]⟩

theorem read?_set (s : Shutdown) {i : Nat} (hi : i < s.receivers.length) (j : Nat)
    (read : Option Nat) :
    read? { s with receivers := s.receivers.set i read } j = if i = j then read else s.read? j := by
  simp only [read?, List.getD_eq_getElem?_getD, List.getElem?_set, hi, if_true]
  split <;> rfl

theorem read?_setRead {s : Shutdown} {i read : Nat} (h : s.read? i = some read) (n j : Nat) :
    (s.setRead i n).read? j = if i = j then some n else s.read? j :=
  s.read?_set (lt_of_read? h) j (some n)

theorem read?_subscribe (s : Shutdown) (i : Nat) :
    read? { s with receivers := s.receivers ++ [some s.sent] } i =
      if s.receivers.length = i then some s.sent else s.read? i := by
  simp only [read?]
  rcases Nat.lt_trichotomy i s.receivers.length with hlt | rfl | hlt
  · rw [List.getD_append _ _ _ _ hlt, if_neg (by omega)]
  · simp
  · have hle : s.receivers.length + 1 ≤ i := hlt
    rw [List.getD_eq_default _ _ (by simpa using hle), List.getD_eq_default _ _ (by omega),
      if_neg (by omega)]

theorem read?_dropReceiver (s : Shutdown) (i j : Nat) :
    read? { s with receivers := s.receivers.set i none } j = if i = j then none else s.read? j := by
  by_cases hlt : i < s.receivers.length
  · exact s.read?_set hlt j none
  · rw [List.set_eq_of_length_le (by omega)]
    split
    · next hij => exact hij ▸ List.getD_eq_default _ _ (Nat.le_of_not_lt hlt)
    · rfl

/-! ## What a move does -/

/-- What a move comes to. -/
inductive Steps (s : Shutdown) : Move → Result × Shutdown → Prop
  | subscribe {handle} : s.hasHandle handle = true →
      Steps s (.subscribe handle)
        (.number s.receivers.length, { s with receivers := s.receivers ++ [some s.sent] })
  | clone {handle} : s.hasHandle handle = true →
      Steps s (.clone handle) (.number s.handles.length, { s with handles := s.handles ++ [true] })
  | trigger {handle i read} : s.hasHandle handle = true → s.read? i = some read →
      Steps s (.trigger handle) (.triggered, { s with sent := s.sent + 1 })
  /-- There is no receiver for the signal. -/
  | unheard {handle} : s.hasHandle handle = true → (∀ i, s.read? i = none) →
      Steps s (.trigger handle) (.triggered, s)
  | noHandle {handle m} : s.hasHandle handle = false →
      m = .subscribe handle ∨ m = .clone handle ∨ m = .trigger handle → Steps s m (.absent, s)
  | dropHandle {handle} : Steps s (.dropHandle handle)
      (.dropped (s.hasHandle handle), { s with handles := s.handles.set handle false })
  | dropReceiver {i} : Steps s (.dropReceiver i)
      (.dropped (s.read? i).isSome, { s with receivers := s.receivers.set i none })
  | noReceiver {i} : s.read? i = none → Steps s (.receive i) (.absent, s)
  | nothing {i read} : s.read? i = some read → s.sent - read = 0 →
      Steps s (.receive i) (.received (if s.isOpen then .empty else .closed), s)
  | signal {i read} : s.read? i = some read → s.sent - read = 1 →
      Steps s (.receive i) (.received .signal, s.setRead i s.sent)
  | lagged {i read n} : s.read? i = some read → s.sent - read = n + 2 →
      Steps s (.receive i) (.received (.lagged (n + 1)), s.setRead i (s.sent - 1))

theorem steps_trigger {s : Shutdown} {handle : Nat} (h : s.hasHandle handle = true) :
    Steps s (.trigger handle) (s.step (.trigger handle)) := by
  simp only [step, trigger, h, if_true]
  split
  · next hany =>
    obtain ⟨i, read, hread⟩ := s.any_isSome_iff.mp hany
    exact .trigger h hread
  · next hany =>
    refine .unheard h fun i => ?_
    cases hread : s.read? i with
    | none => rfl
    | some read => exact absurd (s.any_isSome_iff.mpr ⟨i, read, hread⟩) hany

theorem steps_receive (s : Shutdown) (i : Nat) : Steps s (.receive i) (s.step (.receive i)) := by
  have hgetD : s.receivers.getD i none = s.read? i := rfl
  simp only [step, receive, hgetD]
  cases hread : s.read? i with
  | none => exact .noReceiver hread
  | some read =>
    rcases hn : s.sent - read with _ | _ | n <;> simp only [hn]
    · exact .nothing hread hn
    · exact .signal hread hn
    · exact .lagged hread hn

/-- Every move comes to one of these. -/
theorem steps_step (s : Shutdown) (m : Move) : Steps s m (s.step m) := by
  cases m with
  | subscribe handle =>
    cases hhandle : s.hasHandle handle with
    | true =>
      simp only [step, subscribe, hhandle, if_true]
      exact .subscribe hhandle
    | false =>
      simp only [step, subscribe, hhandle]
      exact .noHandle hhandle (.inl rfl)
  | clone handle =>
    cases hhandle : s.hasHandle handle with
    | true =>
      simp only [step, clone, hhandle, if_true]
      exact .clone hhandle
    | false =>
      simp only [step, clone, hhandle]
      exact .noHandle hhandle (.inr (.inl rfl))
  | trigger handle =>
    cases hhandle : s.hasHandle handle with
    | true => exact steps_trigger hhandle
    | false =>
      simp only [step, trigger, hhandle]
      exact .noHandle hhandle (.inr (.inr rfl))
  | dropHandle handle => exact .dropHandle
  | dropReceiver i => exact .dropReceiver
  | receive i => exact s.steps_receive i

/-! ## Who is there -/

/-- The handles and receivers that are there are those that the moves say. -/
structure Attended (s : Shutdown) (a : Attendance) : Prop where
  handles : a.handles.Lists s.handles
  receivers : a.receivers.Lists (s.receivers.map Option.isSome)

theorem attended_start : Attended {} {} := by
  refine ⟨⟨rfl, fun n => ?_⟩, ⟨rfl, fun n => by simp⟩⟩
  cases n <;> simp

namespace Attended

variable {s : Shutdown} {a : Attendance}

theorem hasHandle (h : Attended s a) (handle : Nat) :
    handle ∈ a.handles.present ↔ s.hasHandle handle = true :=
  h.handles.mem_iff handle

theorem isSome_read? (h : Attended s a) (i : Nat) :
    i ∈ a.receivers.present ↔ (s.read? i).isSome = true := by
  rw [h.receivers.mem_iff, ← Option.isSome_none, List.getD_map]
  rfl

theorem setRead (h : Attended s a) {i read : Nat} (hread : s.read? i = some read) (n : Nat) :
    Attended (s.setRead i n) a := by
  have hlt := lt_of_read? hread
  rw [read?, List.getD_eq_getElem _ _ hlt] at hread
  have hflags : (s.setRead i n).receivers.map Option.isSome = s.receivers.map Option.isSome := by
    rw [Shutdown.setRead, List.map_set]
    refine (congrArg _ ?_).trans (List.set_getElem_self (by simpa using hlt))
    simp [hread]
  exact ⟨h.handles, hflags ▸ h.receivers⟩

/-- Every move keeps to who is there. -/
theorem step (h : Attended s a) (m : Move) : Attended (s.step m).2 (a.enter m) := by
  have hsteps := s.steps_step m
  generalize s.step m = came at hsteps ⊢
  cases hsteps with
  | subscribe hhandle =>
    rw [Attendance.enter, if_pos ((h.hasHandle _).mpr hhandle)]
    refine ⟨h.handles, ?_⟩
    rw [List.map_append]
    exact h.receivers.add
  | clone hhandle =>
    rw [Attendance.enter, if_pos ((h.hasHandle _).mpr hhandle)]
    exact ⟨h.handles.add, h.receivers⟩
  | trigger | unheard => exact ⟨h.handles, h.receivers⟩
  | @noHandle handle _ hhandle hm =>
    have hnot : handle ∉ a.handles.present := by simp [h.hasHandle, hhandle]
    rcases hm with rfl | rfl | rfl <;> simpa [Attendance.enter, hnot] using h
  | dropHandle => exact ⟨h.handles.drop _, h.receivers⟩
  | dropReceiver =>
    refine ⟨h.handles, ?_⟩
    rw [List.map_set]
    exact h.receivers.drop _
  | noReceiver | nothing => exact h
  | signal hread | lagged hread => exact h.setRead hread _

end Attended

theorem attended_after (moves : List Move) : Attended (({} : Shutdown).after moves) (attendance moves) := by
  induction moves using List.reverseRecOn with
  | nil => exact attended_start
  | append_singleton moves m ih =>
    rw [after_snoc, attendance_snoc]
    exact ih.step m

/-! ## The account of a state -/

/-- The account of a receiver says what its state does. -/
structure Tallies (s : Shutdown) (i : Nat) (a : Account) : Prop where
  handles : a.handles = s.handles.count true
  unread : a.unread = (s.read? i).map (s.sent - ·)
  read_le : ∀ read, s.read? i = some read → read ≤ s.sent

theorem isOpen_iff (s : Shutdown) : s.isOpen = true ↔ s.handles.count true ≠ 0 := by
  rw [isOpen, List.contains_iff_mem, ← List.count_pos_iff, Nat.pos_iff_ne_zero]

theorem count_set_false (handles : List Bool) (handle : Nat) :
    (handles.set handle false).count true =
      handles.count true - if handles.getD handle false then 1 else 0 := by
  by_cases hlt : handle < handles.length
  · rw [List.count_set hlt, List.getD_eq_getElem _ _ hlt]
    simp
  · have hle : handles.length ≤ handle := by omega
    rw [List.set_eq_of_length_le hle, List.getD_eq_default _ _ hle]
    rfl

theorem tallies_start (i : Nat) : Tallies {} i {} :=
  ⟨rfl, rfl, fun _ h => by cases h⟩

namespace Tallies

variable {s : Shutdown} {i : Nat} {a : Account}

/-- What is read is what the account says. -/
theorem answer (h : Tallies s i a) : (s.step (.receive i)).1 = a.answer := by
  have hunread := h.unread
  have hsteps := s.steps_receive i
  generalize s.step (.receive i) = came at hsteps ⊢
  unfold Account.answer
  cases hsteps with
  | noHandle _ hm => simp at hm
  | noReceiver hread => simp [hunread, hread]
  | nothing hread hn =>
    have hopen := s.isOpen_iff
    rw [← h.handles] at hopen
    simp only [hunread, hread, Option.map_some, hn]
    by_cases hclosed : a.handles = 0 <;> simp [hclosed, hopen]
  | signal hread hn => simp [hunread, hread, hn]
  | lagged hread hn => simp [hunread, hread, hn]

/-- A change of handles alone. -/
theorem of_handles (h : Tallies s i a) {handles : List Bool} {n : Nat} (hn : n = handles.count true) :
    Tallies { s with handles := handles } i { a with handles := n } :=
  ⟨hn, h.unread, h.read_le⟩

/-- A change of other receivers. -/
theorem of_receivers (h : Tallies s i a) {receivers : List (Option Nat)}
    (hread : read? { s with receivers } i = s.read? i) : Tallies { s with receivers } i a :=
  ⟨h.handles, by rw [hread]; exact h.unread, by rw [hread]; exact h.read_le⟩

/-- A receiver that is not there. -/
theorem of_absent {s' : Shutdown} (h : Tallies s i a) (hread : s'.read? i = none)
    (hhandles : s'.handles = s.handles) : Tallies s' i { a with unread := none } :=
  ⟨h.handles.trans (by rw [hhandles]), by rw [hread]; rfl, by rw [hread]; intro _ h; cases h⟩

theorem unread_eq_none (h : Tallies s i a) (hread : s.read? i = none) :
    { a with unread := none } = a := by
  have hunread : a.unread = none := by rw [h.unread, hread]; rfl
  rw [← hunread]

/-- A read of the receiver itself. -/
theorem setRead (h : Tallies s i a) {read n : Nat} (hread : s.read? i = some read) (hle : n ≤ s.sent)
    (hn : s.sent - n = Account.afterRead (s.sent - read)) :
    Tallies (s.setRead i n) i (a.enter .read) := by
  have hself : (s.setRead i n).read? i = some n := by rw [read?_setRead hread, if_pos rfl]
  refine ⟨h.handles, ?_, ?_⟩
  · simp [Account.enter, h.unread, hread, hself, hn]
  · intro read' hread'
    cases hself.symm.trans hread'
    exact hle

/-- A read of another receiver. -/
theorem setRead_ne (h : Tallies s i a) {j read : Nat} (hread : s.read? j = some read) (hij : j ≠ i)
    (n : Nat) : Tallies (s.setRead j n) i a := by
  refine h.of_receivers ((read?_setRead hread n i).trans ?_)
  rw [if_neg hij]

/-- A read of any receiver, which is an event for the receiver itself only. -/
theorem receive (h : Tallies s i a) {there : Attendance} (hthere : Attended s there) {j read n : Nat}
    (hread : s.read? j = some read) (hle : n ≤ s.sent)
    (hn : s.sent - n = Account.afterRead (s.sent - read)) :
    Tallies (s.setRead j n) i (a.record (there.event? i (.receive j))) := by
  by_cases hij : j = i
  · subst hij
    simpa [Attendance.event?, hthere.isSome_read?, hread] using h.setRead hread hle hn
  · simpa [Attendance.event?, hij] using h.setRead_ne hread hij n

theorem subscribe (h : Tallies s i a) :
    Tallies { s with receivers := s.receivers ++ [some s.sent] } i
      (a.record (if s.receivers.length = i then some .subscribed else none)) := by
  have hread := s.read?_subscribe i
  by_cases hi : s.receivers.length = i
  · rw [if_pos hi] at hread ⊢
    refine ⟨h.handles, ?_, ?_⟩
    · simp [Account.enter, hread]
    · intro read hread'
      cases hread.symm.trans hread'
      exact Nat.le_refl _
  · rw [if_neg hi] at hread ⊢
    exact h.of_receivers hread

theorem trigger (h : Tallies s i a) : Tallies { s with sent := s.sent + 1 } i (a.enter .triggered) := by
  have hread : read? { s with sent := s.sent + 1 } i = s.read? i := rfl
  cases hi : s.read? i with
  | none =>
    have ha : a.enter .triggered = { a with unread := none } := by simp [Account.enter, h.unread, hi]
    rw [ha]
    exact h.of_absent (hread.trans hi) rfl
  | some read =>
    have hle := h.read_le _ hi
    refine ⟨h.handles, ?_, fun read' hread' => ?_⟩
    · simp [Account.enter, h.unread, hread, hi]
      omega
    · exact Nat.le_succ_of_le (h.read_le _ hread')

theorem dropReceiver (h : Tallies s i a) (j : Nat) :
    Tallies { s with receivers := s.receivers.set j none } i
      (a.record (if (s.read? j).isSome = true ∧ j = i then some .receiverDropped else none)) := by
  have hread := s.read?_dropReceiver j i
  by_cases hij : j = i
  · subst hij
    rw [if_pos rfl] at hread
    have hnone := h.of_absent hread rfl
    cases hj : s.read? j with
    | none => simpa [h.unread_eq_none hj] using hnone
    | some read => simpa [Account.enter] using hnone
  · rw [if_neg hij] at hread
    simpa [hij] using h.of_receivers hread

/-- Every move keeps the account. -/
theorem step (h : Tallies s i a) {there : Attendance} (hthere : Attended s there) (m : Move) :
    Tallies (s.step m).2 i (a.record (there.event? i m)) := by
  have hsteps := s.steps_step m
  generalize s.step m = came at hsteps ⊢
  cases hsteps with
  | subscribe hhandle =>
    have hmade : there.receivers.made = s.receivers.length := by simp [hthere.receivers.made]
    simpa [Attendance.event?, hthere.hasHandle, hhandle, hmade] using h.subscribe
  | clone hhandle =>
    have hcount : a.handles + 1 = (s.handles ++ [true]).count true := by simp [h.handles]
    simpa [Attendance.event?, hthere.hasHandle, hhandle, Account.enter] using h.of_handles hcount
  | trigger hhandle =>
    simpa [Attendance.event?, hthere.hasHandle, hhandle] using h.trigger
  | unheard hhandle hnone =>
    have ha : a.enter .triggered = a := by
      rw [← h.unread_eq_none (hnone i)]
      rfl
    simpa [Attendance.event?, hthere.hasHandle, hhandle, ha] using h
  | noHandle hhandle hm =>
    rcases hm with rfl | rfl | rfl <;>
      simpa [Attendance.event?, hthere.hasHandle, hhandle] using h
  | @dropHandle handle =>
    have hcount := count_set_false s.handles handle
    rw [← h.handles, show s.handles.getD handle false = s.hasHandle handle from rfl] at hcount
    cases hhandle : s.hasHandle handle with
    | true =>
      rw [hhandle] at hcount
      simpa [Attendance.event?, hthere.hasHandle, hhandle, Account.enter] using
        h.of_handles hcount.symm
    | false =>
      rw [hhandle] at hcount
      simpa [Attendance.event?, hthere.hasHandle, hhandle] using h.of_handles hcount.symm
  | @dropReceiver j => simpa [Attendance.event?, hthere.isSome_read?] using h.dropReceiver j
  | noReceiver hread => simpa [Attendance.event?, hthere.isSome_read?, hread] using h
  | @nothing j read hread hn =>
    by_cases hij : j = i
    · subst hij
      have hzero : a.unread = some 0 := by simp [h.unread, hread, hn]
      have ha : a.enter .read = a := by
        cases a
        cases hzero
        rfl
      simpa [Attendance.event?, hthere.isSome_read?, hread, ha] using h
    · simpa [Attendance.event?, hij] using h
  | signal hread hn =>
    exact h.receive hthere hread (Nat.le_refl _) (by simp [hn, Account.afterRead])
  | lagged hread hn =>
    have hone : s.sent - (s.sent - 1) = 1 := by omega
    exact h.receive hthere hread (Nat.sub_le _ 1) (by simp [hn, hone, Account.afterRead])

end Tallies

theorem tallies_after (i : Nat) (moves : List Move) :
    Tallies (({} : Shutdown).after moves) i (account i moves) := by
  induction moves using List.reverseRecOn with
  | nil => exact tallies_start i
  | append_singleton moves m ih =>
    rw [after_snoc, account_snoc]
    exact ih.step (attended_after moves) m

/-- What comes of a move is what the moves before it say. -/
theorem step_eq_comesOf (moves : List Move) (m : Move) :
    ((({} : Shutdown).after moves).step m).1 = comesOf moves m := by
  have hthere := attended_after moves
  generalize hs : ({} : Shutdown).after moves = s at hthere
  by_cases hreceive : ∃ i, m = .receive i
  · obtain ⟨i, rfl⟩ := hreceive
    rw [← hs]
    exact (tallies_after i moves).answer
  have hsteps := s.steps_step m
  generalize s.step m = came at hsteps ⊢
  cases hsteps with
  | subscribe hhandle => simp [comesOf, hthere.hasHandle, hhandle, hthere.receivers.made]
  | clone hhandle => simp [comesOf, hthere.hasHandle, hhandle, hthere.handles.made]
  | trigger hhandle | unheard hhandle => simp [comesOf, hthere.hasHandle, hhandle]
  | noHandle hhandle hm =>
    rcases hm with rfl | rfl | rfl <;> simp [comesOf, hthere.hasHandle, hhandle]
  | dropHandle => simp [comesOf, hthere.hasHandle]
  | dropReceiver => simp [comesOf, hthere.isSome_read?]
  | noReceiver | nothing | signal | lagged => exact absurd ⟨_, rfl⟩ hreceive

/-! ## Signals that are due -/

/-- If the receiver is there at all, a signal waits for it. -/
def IsDue (s : Shutdown) (i : Nat) : Prop :=
  i < s.receivers.length ∧ ∀ read, s.read? i = some read → read < s.sent

theorem isDue_trigger {s : Shutdown} {i read : Nat} (hread : s.read? i = some read)
    (hle : read ≤ s.sent) {handle : Nat} (hhandle : s.hasHandle handle = true) :
    IsDue (s.step (.trigger handle)).2 i := by
  have hsteps := steps_trigger hhandle
  generalize s.step (.trigger handle) = came at hsteps ⊢
  cases hsteps with
  | trigger =>
    refine ⟨lt_of_read? hread, fun read' hread' => ?_⟩
    cases hread.symm.trans hread'
    exact Nat.lt_succ_of_le hle
  | unheard _ hnone => cases hread.symm.trans (hnone i)
  | noHandle hno hm =>
    obtain rfl : handle = _ := by simpa using hm
    cases hhandle.symm.trans hno

namespace IsDue

variable {s : Shutdown} {i : Nat}

/-- A signal stays due until the receiver gets one, whatever else happens. -/
theorem step (h : IsDue s i) {m : Move} (hm : (m, (s.step m).1) ≠ (.receive i, .received .signal)) :
    IsDue (s.step m).2 i := by
  have hsteps := s.steps_step m
  generalize s.step m = came at hsteps hm ⊢
  cases hsteps with
  | subscribe =>
    have hlt := h.1
    refine ⟨by simp; omega, fun read hread => ?_⟩
    rw [read?_subscribe, if_neg (by omega)] at hread
    exact h.2 read hread
  | trigger => exact ⟨h.1, fun read hread => Nat.lt_succ_of_lt (h.2 read hread)⟩
  | clone | unheard | noHandle | dropHandle | noReceiver | nothing => exact h
  | dropReceiver =>
    refine ⟨by simpa using h.1, fun read hread => ?_⟩
    rw [read?_dropReceiver] at hread
    split at hread
    · cases hread
    · exact h.2 read hread
  | @signal j read hread =>
    have hij : j ≠ i := by
      rintro rfl
      exact hm rfl
    refine ⟨by simpa [setRead] using h.1, fun read' hread' => ?_⟩
    rw [read?_setRead hread, if_neg hij] at hread'
    exact h.2 read' hread'
  | lagged hread hn =>
    refine ⟨by simpa [setRead] using h.1, fun read' hread' => ?_⟩
    rw [read?_setRead hread] at hread'
    split at hread'
    · cases hread'
      rw [setRead_sent]
      omega
    · exact h.2 read' hread'

theorem after (h : IsDue s i) {moves : List Move}
    (hmoves : (.receive i, .received .signal) ∉ s.history moves) : IsDue (s.after moves) i := by
  induction moves generalizing s with
  | nil => exact h
  | cons m moves ih =>
    simp only [history, List.mem_cons, not_or] at hmoves
    exact ih (h.step (Ne.symm hmoves.1)) hmoves.2

end IsDue

theorem step_receive_of_one {s : Shutdown} {i read : Nat} (hread : s.read? i = some read)
    (hn : s.sent - read = 1) : (s.step (.receive i)).1 = .received .signal := by
  have hgetD : s.receivers.getD i none = some read := hread
  simp only [step, receive, hgetD, hn]

/-- What is due is the next thing that the receiver gets. If it missed others it is told so first. -/
theorem IsDue.receive {s : Shutdown} {i : Nat} (h : IsDue s i) :
    let came := s.step (.receive i)
    s.read? i = none ∧ came.1 = .absent ∨ came.1 = .received .signal ∨
      ∃ missed, came.1 = .received (.lagged missed) ∧
        (came.2.step (.receive i)).1 = .received .signal := by
  have hsteps := s.steps_receive i
  generalize s.step (.receive i) = came at hsteps ⊢
  cases hsteps with
  | noHandle _ hm => simp at hm
  | noReceiver hread => exact .inl ⟨hread, rfl⟩
  | nothing hread hn =>
    have hlt := h.2 _ hread
    omega
  | signal => exact .inr (.inl rfl)
  | @lagged _ _ n hread hn =>
    have hset := read?_setRead hread (s.sent - 1) i
    rw [if_pos rfl] at hset
    have hone : s.sent - (s.sent - 1) = 1 := by omega
    exact .inr (.inr ⟨n + 1, rfl, step_receive_of_one hset hone⟩)

/-! ## What a receiver is told -/

theorem trigger_of_no_receiver {s : Shutdown} (h : ∀ i, s.read? i = none) (handle : Nat) :
    (s.step (.trigger handle)).2 = s := by
  have hsteps := s.steps_step (.trigger handle)
  generalize s.step (.trigger handle) = came at hsteps ⊢
  cases hsteps with
  | trigger _ hread => cases hread.symm.trans (h _)
  | unheard | noHandle => rfl

/-- **A receiver is told of the signals that were sent while it was there, and of nothing else.** In
any run of handles and receivers that descend from one shutdown, what comes of a move is what the moves
before it say: a handle that was made and not dropped sends its signal and makes others and receivers,
and a read is answered as the account of the receiver says. Runs which a receiver cannot tell apart
answer it alike. A signal that no receiver is there for leaves no trace. One that a receiver is there
for is the next thing that the receiver gets, whatever happens until then, unless it is dropped; if it
missed others it is told so first. -/
theorem reads_account (moves : List Move) (i : Nat) :
    let s := ({} : Shutdown).after moves
    (∀ m, (s.step m).1 = comesOf moves m) ∧
    (∀ moves' i', view i' moves' = view i moves →
      ((({} : Shutdown).after moves').step (.receive i')).1 = (s.step (.receive i)).1) ∧
    (∀ handle, (attendance moves).receivers.present = ∅ → (s.step (.trigger handle)).2 = s) ∧
    (∀ handle later, handle ∈ (attendance moves).handles.present →
      i ∈ (attendance moves).receivers.present →
      (.receive i, .received .signal) ∉ (s.step (.trigger handle)).2.history later →
      let came := ((s.step (.trigger handle)).2.after later).step (.receive i)
      .dropReceiver i ∈ later ∧ came.1 = .absent ∨ came.1 = .received .signal ∨
        ∃ missed, came.1 = .received (.lagged missed) ∧
          (came.2.step (.receive i)).1 = .received .signal) := by
  intro s
  have hthere : Attended s (attendance moves) := attended_after moves
  have htallies : Tallies s i (account i moves) := tallies_after i moves
  refine ⟨step_eq_comesOf moves, fun moves' i' hview => ?_, fun handle hempty => ?_, ?_⟩
  · have haccount : account i' moves' = account i moves := by rw [account, account, hview]
    rw [(tallies_after i' moves').answer, htallies.answer, haccount]
  · refine trigger_of_no_receiver (fun j => ?_) handle
    have hnot : j ∉ (attendance moves).receivers.present := by simp [hempty]
    simpa [hthere.isSome_read?] using hnot
  · intro handle later hhandle hi hlater
    rw [hthere.isSome_read?] at hi
    obtain ⟨read, hread⟩ := Option.isSome_iff_exists.mp hi
    have hdue := isDue_trigger hread (htallies.read_le _ hread) ((hthere.hasHandle _).mp hhandle)
    refine (hdue.after hlater).receive.imp (fun habsent => ⟨?_, habsent.2⟩) id
    -- a receiver that was there is only missing later if it was dropped
    by_contra hdrop
    have hstays : i ∈ (attendance (moves ++ .trigger handle :: later)).receivers.present := by
      rw [attendance, List.foldl_append]
      exact Attendance.mem_receivers_foldl ((hthere.isSome_read? i).mpr hi) (by simpa using hdrop)
    rw [(attended_after _).isSome_read?, after_append] at hstays
    have hnone : (s.after (.trigger handle :: later)).read? i = none := habsent.1
    rw [hnone] at hstays
    cases hstays

/-- Two signals are sent to a receiver, and the last handle goes: it reads that it missed one, then
the other one, and then that there will be no more. A second receiver that reads in between changes
nothing, and neither does a signal before the first one. -/
theorem reads_account_missed :
    let s := ({} : Shutdown).after [.trigger 0, .subscribe 0]
    let later := [.trigger 0, .dropHandle 0]
    ((attendance []).receivers.present = ∅ ∧ (({} : Shutdown).step (.trigger 0)).2 = {}) ∧
    (view 1 [.subscribe 0, .subscribe 0, .trigger 0, .receive 0] = view 0 [.subscribe 0, .trigger 0] ∧
      (({} : Shutdown).after [.subscribe 0, .subscribe 0, .trigger 0, .receive 0]
        |>.step (.receive 1)).1 = .received .signal) ∧
    (0 ∈ (attendance [.trigger 0, .subscribe 0]).handles.present ∧
      0 ∈ (attendance [.trigger 0, .subscribe 0]).receivers.present ∧
      (.receive 0, .received .signal) ∉ (s.step (.trigger 0)).2.history later ∧
      let came := ((s.step (.trigger 0)).2.after later).step (.receive 0)
      came.1 = .received (.lagged 1) ∧ (came.2.step (.receive 0)).1 = .received .signal) ∧
    (({} : Shutdown).after [.subscribe 0, .trigger 0, .dropHandle 0, .receive 0]
      |>.step (.receive 0)).1 = .received .closed := by
  intro s later
  obtain ⟨-, -, hnone, -⟩ := reads_account [] 0
  obtain ⟨hread, halike, -, -⟩ := reads_account [.subscribe 0, .trigger 0] 0
  obtain ⟨-, -, -, hdue⟩ := reads_account [.trigger 0, .subscribe 0] 0
  obtain ⟨hlast, -⟩ := reads_account [.subscribe 0, .trigger 0, .dropHandle 0, .receive 0] 0
  have hunread : (.receive 0, .received .signal) ∉ (s.step (.trigger 0)).2.history later := by decide
  refine ⟨⟨rfl, hnone 0 rfl⟩, ⟨by decide, (halike _ 1 (by decide)).trans (hread (.receive 0))⟩,
    ⟨by decide, by decide, hunread, ?_⟩, hlast (.receive 0)⟩
  rcases hdue 0 later (by decide) (by decide) hunread with ⟨hdrop, -⟩ | hsignal | ⟨missed, hmissed, hnext⟩
  · exact absurd hdrop (by decide)
  · cases hsignal
  · exact ⟨rfl, hnext⟩

end UpgradeBridge.Shutdown
