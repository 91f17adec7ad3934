/-
Loading settings stage by stage, and what is reported about those that are not
valid: every rule that is broken, each once, in the order of the rules. A rule
looks at one field only, so that a change of one field does not touch what is
reported about the others.

`Breaks` tells the rules without the check: an address is one that `Spells`
allows, and a level is compared octet by octet but for the case of letters.
-/
import UpgradeBridge.Proofs.Launch
import UpgradeBridge.Proofs.SocketAddress

namespace UpgradeBridge

/-- The document is at fault: it is none, or it does not fit. -/
def SettingsError.isParse : SettingsError → Bool
  | .notToml => true
  | .misfit _ => true
  | _ => false

/-- Where a problem stands among others. -/
def Problem.rank : Problem → Nat
  | .bindAddress _ => 0
  | .zeroTimeout .connect => 1
  | .zeroTimeout .request => 2
  | .logLevel _ => 3

namespace Settings

/-! ## The rules -/

/-- A rule that settings break, with the problem that tells it. -/
inductive Breaks (s : Settings) : Problem → Prop
  | bindAddress : (∀ address, ¬ SocketAddress.Spells s.listener.bindAddress.toList address) →
      Breaks s (.bindAddress s.listener.bindAddress)
  | connect : s.timeouts.connectSecs = 0 → Breaks s (.zeroTimeout .connect)
  | request : s.timeouts.requestSecs = 0 → Breaks s (.zeroTimeout .request)
  | logLevel : (∀ level ∈ ["trace", "debug", "info", "warn", "error"],
        ¬ List.Forall₂ Ascii.SameLetter (utf8 s.observability.logLevel) (utf8 level)) →
      Breaks s (.logLevel s.observability.logLevel)

theorem ofString?_isNone_iff {text : String} : (SocketAddress.ofString? text).isNone = true ↔
    ∀ address, ¬ SocketAddress.Spells text.toList address := by
  simp only [Option.isNone_iff_eq_none, Option.eq_none_iff_forall_ne_some, ne_eq,
    SocketAddress.ofString?_eq_some_iff]

theorem logLevels_contains_iff {level : String} : logLevels.contains (Ascii.lower level) = true ↔
    ∃ known ∈ ["trace", "debug", "info", "warn", "error"],
      List.Forall₂ Ascii.SameLetter (utf8 level) (utf8 known) := by
  rw [List.contains_iff_mem]
  constructor
  · exact fun h => ⟨_, h, Ascii.lower_eq_lower_iff.mp (Observability.lower_of_mem_logLevels h).symm⟩
  · rintro ⟨known, hknown, hletters⟩
    have hlower := Ascii.lower_eq_lower_iff.mpr hletters
    rw [hlower, Observability.lower_of_mem_logLevels hknown]
    exact hknown

/-- What is reported are the rules that are broken. -/
theorem mem_problems_iff {s : Settings} {p : Problem} : p ∈ s.problems ↔ Breaks s p := by
  simp only [problems, List.mem_append, mem_problemIf, ofString?_isNone_iff, beq_iff_eq,
    Bool.not_eq_true', Bool.eq_false_iff, ne_eq, logLevels_contains_iff, not_exists, not_and]
  constructor
  · rintro (((⟨h, rfl⟩ | ⟨h, rfl⟩) | ⟨h, rfl⟩) | ⟨h, rfl⟩)
    · exact .bindAddress h
    · exact .connect h
    · exact .request h
    · exact .logLevel h
  · rintro (h | h | h | h)
    · exact .inl (.inl (.inl ⟨h, rfl⟩))
    · exact .inl (.inl (.inr ⟨h, rfl⟩))
    · exact .inl (.inr ⟨h, rfl⟩)
    · exact .inr ⟨h, rfl⟩

theorem problemIf_sublist (broken : Bool) (p : Problem) : (problemIf broken p).Sublist [p] := by
  cases broken <;> simp [problemIf]

/-- The problems stand in the order of the rules, each once. -/
theorem problems_pairwise (s : Settings) : s.problems.Pairwise (·.rank < ·.rank) := by
  have hall : [Problem.bindAddress s.listener.bindAddress, .zeroTimeout .connect, .zeroTimeout .request,
      .logLevel s.observability.logLevel].Pairwise (·.rank < ·.rank) := by
    simp [Problem.rank]
  refine hall.sublist ?_
  exact (((problemIf_sublist _ _).append (problemIf_sublist _ _)).append (problemIf_sublist _ _)).append
    (problemIf_sublist _ _)

/-- Problems in the order of the rules are told by which they are. -/
theorem eq_of_pairwise {ps qs : List Problem} (hps : ps.Pairwise (·.rank < ·.rank))
    (hqs : qs.Pairwise (·.rank < ·.rank)) (h : ∀ p, p ∈ ps ↔ p ∈ qs) : ps = qs := by
  have hnodup : ∀ {ps : List Problem}, ps.Pairwise (·.rank < ·.rank) → ps.Nodup := fun h =>
    h.imp fun {p q} hlt (heq : p = q) => Nat.ne_of_lt hlt (congrArg Problem.rank heq)
  have hperm := (List.perm_ext_iff_of_nodup (hnodup hps) (hnodup hqs)).mpr h
  exact hperm.eq_of_pairwise (fun p q _ _ hpq hqp => absurd hpq (Nat.lt_asymm hqp)) hps hqs

/-! ## Changes of one field -/

/-- A new value for one field. -/
inductive Change
  | bindAddress (text : String)
  | connectSecs (n : Nat)
  | requestSecs (n : Nat)
  | enabled (value : Bool)
  | acceptAlphabet (alphabet : Base64.Alphabet)
  | logLevel (text : String)

/-- The settings with one field changed. -/
def Change.apply : Change → Settings → Settings
  | bindAddress text, s => { s with listener := { s.listener with bindAddress := text } }
  | connectSecs n, s => { s with timeouts := { s.timeouts with connectSecs := n } }
  | requestSecs n, s => { s with timeouts := { s.timeouts with requestSecs := n } }
  | enabled value, s => { s with handshake := { s.handshake with enabled := value } }
  | acceptAlphabet alphabet, s => { s with handshake := { s.handshake with acceptAlphabet := alphabet } }
  | logLevel text, s => { s with observability := { s.observability with logLevel := text } }

/-- Where the problem of the changed field stands, if there is a rule for it. -/
def Change.rank? : Change → Option Nat
  | bindAddress _ => some 0
  | connectSecs _ => some 1
  | requestSecs _ => some 2
  | logLevel _ => some 3
  | _ => none

/-- The problem is one of the field that is changed. -/
def Change.concerns (c : Change) (p : Problem) : Bool :=
  c.rank? == some p.rank

theorem filter_problemIf (keep : Problem → Bool) (broken : Bool) (p : Problem) :
    (problemIf broken p).filter keep = problemIf (broken && keep p) p := by
  cases broken <;> cases hp : keep p <;> simp [problemIf, hp]

/-- What is reported about the other fields stays as it is. -/
theorem problems_change (c : Change) (s : Settings) :
    (c.apply s).problems.filter (!c.concerns ·) = s.problems.filter (!c.concerns ·) := by
  simp only [problems, List.filter_append, filter_problemIf, Change.concerns]
  cases c <;> simp [Change.apply, Change.rank?, Problem.rank, problemIf]

/-- About one field no more than one problem is reported. -/
theorem concerned_length_le (c : Change) (s : Settings) :
    (s.problems.filter c.concerns).length ≤ 1 := by
  have hsorted := s.problems_pairwise.filter c.concerns
  have hranks : ∀ p ∈ s.problems.filter c.concerns, c.rank? = some p.rank := fun p hp =>
    beq_iff_eq.mp (List.mem_filter.mp hp).2
  match hps : s.problems.filter c.concerns with
  | [] | [_] => simp
  | p :: q :: ps =>
    rw [hps] at hranks
    have hlt : p.rank < q.rank := (List.pairwise_cons.mp (hps ▸ hsorted)).1 q (by simp)
    have hp := hranks p (by simp)
    have hq := hranks q (by simp)
    have heq := Option.some.inj (hp.symm.trans hq)
    omega

/-! ## Loading -/

/-- The text is a document that fits the settings, and gives these. -/
def GivenBy (text : String) (s : Settings) : Prop :=
  ∃ root, Toml.Document.read? text = some root ∧ ofDocument root = .ok s

theorem parse_of_givenBy {text : String} {s : Settings} (h : GivenBy text s) : parse text = s.check := by
  obtain ⟨root, hroot, hs⟩ := h
  simp only [parse, hroot, hs]

theorem parse_of_not_givenBy {text : String} (h : ¬ ∃ s, GivenBy text s) :
    ∃ error, parse text = .error error ∧ error.isParse = true := by
  unfold parse
  split
  · exact ⟨_, rfl, rfl⟩
  · next root hroot =>
    split
    · exact ⟨_, rfl, rfl⟩
    · next s hs => exact absurd ⟨s, root, hroot, hs⟩ h

theorem load_utf8 (text : String) : load (utf8 text) = parse text := by
  have htext : ofUtf8? (utf8 text) = some text := ofUtf8?_eq_some_iff.mpr rfl
  simp only [load, htext]

theorem load_of_no_text {content : Bytes} (h : ¬ ∃ text, utf8 text = content) :
    load content = .error (.io .invalidUtf8) := by
  have htext : ofUtf8? content = none :=
    Option.eq_none_iff_forall_ne_some.mpr fun text htext => h ⟨text, ofUtf8?_eq_some_iff.mp htext⟩
  simp only [load, htext]

/-- Checked settings come out as they are, or everything that is wrong with them does. -/
theorem check_eq_ok_iff_breaks {s s' : Settings} :
    s.check = .ok s' ↔ s' = s ∧ ∀ p, ¬ Breaks s p := by
  simp only [check_eq_ok_iff, List.eq_nil_iff_forall_not_mem, mem_problems_iff]
  rw [and_comm, eq_comm]

theorem check_eq_error_iff_breaks {s : Settings} {error : SettingsError} :
    s.check = .error error ↔ ∃ problems, error = .invalid problems ∧ problems ≠ [] ∧
      (∀ p, p ∈ problems ↔ Breaks s p) ∧ problems.Pairwise (·.rank < ·.rank) := by
  rw [check_eq_error_iff]
  constructor
  · rintro ⟨hne, rfl⟩
    exact ⟨_, rfl, hne, fun p => mem_problems_iff, s.problems_pairwise⟩
  · rintro ⟨problems, rfl, hne, hmem, hsorted⟩
    obtain rfl : problems = s.problems :=
      eq_of_pairwise hsorted s.problems_pairwise fun p => (hmem p).trans mem_problems_iff.symm
    exact ⟨hne, rfl⟩

/-- **Loading fails at the first stage that fails, and the check reports everything.** Octets that are
no text fail as such, and all others are parsed. The parse fails for the document exactly where the
text gives no settings, whatever is wrong with its values. Where it gives settings, these come out
unchanged if and only if they break no rule, and otherwise what is reported are the rules that they
break, each once, in their order, told in one message. And a change of one field leaves what is
reported about the others as it is, with no more than one problem for that field. -/
theorem load_reports :
    (∀ content, load content = .error (.io .invalidUtf8) ↔ ¬ ∃ text, utf8 text = content) ∧
    (∀ text, load (utf8 text) = parse text) ∧
    (∀ text, (∃ error, parse text = .error error ∧ error.isParse = true) ↔ ¬ ∃ s, GivenBy text s) ∧
    (∀ text s, GivenBy text s →
      (∀ s', parse text = .ok s' ↔ s' = s ∧ ∀ p, ¬ Breaks s p) ∧
      ∀ error, parse text = .error error ↔ ∃ problems, error = .invalid problems ∧ problems ≠ [] ∧
        (∀ p, p ∈ problems ↔ Breaks s p) ∧ problems.Pairwise (·.rank < ·.rank)) ∧
    (∀ problems, (SettingsError.invalid problems).message =
      "Validation failed: " ++ ", ".intercalate (problems.map Problem.message)) ∧
    ∀ (s : Settings) (c : Change),
      (c.apply s).problems.filter (!c.concerns ·) = s.problems.filter (!c.concerns ·) ∧
      (s.problems.filter c.concerns).length ≤ 1 := by
  refine ⟨fun content => ⟨?_, load_of_no_text⟩, load_utf8, fun text => ⟨?_, parse_of_not_givenBy⟩,
    fun text s hs => ?_, fun _ => rfl, fun s c => ⟨problems_change c s, concerned_length_le c s⟩⟩
  · rintro h ⟨text, rfl⟩
    rw [load_utf8] at h
    by_cases hgiven : ∃ s, GivenBy text s
    · obtain ⟨s, hs⟩ := hgiven
      rw [parse_of_givenBy hs] at h
      cases (check_eq_error_iff.mp h).2
    · obtain ⟨error, herror, hparse⟩ := parse_of_not_givenBy hgiven
      rw [h] at herror
      cases herror
      cases hparse
  · rintro ⟨error, herror, hparse⟩ ⟨s, hs⟩
    rw [parse_of_givenBy hs] at herror
    obtain ⟨-, rfl⟩ := check_eq_error_iff.mp herror
    cases hparse
  · rw [parse_of_givenBy hs]
    exact ⟨fun s' => check_eq_ok_iff_breaks, fun error => check_eq_error_iff_breaks⟩

/-- A file with both of its time limits zero. -/
def zerosText : String := "[timeouts]\nconnect_secs = 0\nrequest_secs = 0\n"

theorem load_reports_zeros :
    GivenBy zerosText { timeouts := ⟨0, 0⟩ } ∧
      load (utf8 zerosText) = .error (.invalid [.zeroTimeout .connect, .zeroTimeout .request]) := by
  have hgiven : GivenBy zerosText { timeouts := ⟨0, 0⟩ } := by
    refine ⟨[("timeouts", .table .header [("connect_secs", .integer 0), ("request_secs", .integer 0)])],
      ?_, rfl⟩
    cbv
  obtain ⟨-, hload, -, hparse, -⟩ := load_reports
  refine ⟨hgiven, (hload zerosText).trans (((hparse _ _ hgiven).2 _).mpr ⟨_, rfl, by simp, fun p => ?_, ?_⟩)⟩
  · rw [← mem_problems_iff]
    exact Iff.rfl
  · simp [Problem.rank]

end Settings

end UpgradeBridge
