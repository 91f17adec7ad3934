/-
What a start of the program comes to. Whatever file of settings and whatever
address a command line names, the program gets past its settings with valid ones
only: those of the file, or the defaults, at the address of the command line.

Settings are checked when their file is loaded and again when their address is
replaced; the defaults are not checked where nothing replaces their address, and
are valid. What the check asks of a log level is what the directives of the log
need, since the check and the log put it in lower case alike.
-/
import Mathlib
import UpgradeBridge.Launch
import UpgradeBridge.Proofs.Ascii

namespace UpgradeBridge

/-! ## The log level -/

namespace Settings.Observability

open Ascii

theorem lower_of_mem_logLevels {level : String} (h : level ∈ logLevels) : lower level = level := by
  revert level
  decide

theorem directives_eq (o : Observability) : o.directives =
    "wss_handshake_tunnel=" ++ lower o.logLevel ++ ",tower_http=" ++ lower o.logLevel :=
  rfl

/-- Directives tell the level they are made of. -/
theorem directives_eq_iff {o : Observability} {level : String} :
    o.directives = "wss_handshake_tunnel=" ++ level ++ ",tower_http=" ++ level ↔
      lower o.logLevel = level := by
  constructor
  · intro h
    have hlists := congrArg String.toList h
    have hlengths := congrArg List.length hlists
    simp only [directives_eq, String.toList_append, List.length_append] at hlists hlengths
    exact String.toList_inj.mp (List.append_inj_right' hlists (by omega))
  · intro h
    rw [directives_eq, h]

theorem lower_mem_logLevels_iff {o : Observability} : lower o.logLevel ∈ logLevels ↔
    ∃ level ∈ logLevels,
      o.directives = "wss_handshake_tunnel=" ++ level ++ ",tower_http=" ++ level := by
  simp only [directives_eq_iff, exists_eq_right']

/-- A known level is one of those in lower case, however it is capitalised. -/
theorem sameLetters_of_lower_eq {o : Observability} {level : String} (hlevel : level ∈ logLevels)
    (h : lower o.logLevel = level) : List.Forall₂ SameLetter (utf8 o.logLevel) (utf8 level) := by
  rw [← lower_eq_lower_iff, h, lower_of_mem_logLevels hlevel]

end Settings.Observability

/-! ## Valid settings -/

namespace Settings

theorem check_eq_ok_iff {s s' : Settings} : s.check = .ok s' ↔ s.problems = [] ∧ s = s' := by
  simp only [check, List.isEmpty_iff]
  split
  · next h => rw [Except.ok.injEq, and_iff_right h]
  · next h => simp only [reduceCtorEq, h, false_and]

theorem check_eq_error_iff {s : Settings} {error : SettingsError} :
    s.check = .error error ↔ s.problems ≠ [] ∧ error = .invalid s.problems := by
  simp only [check, List.isEmpty_iff]
  split
  · next h => simp only [reduceCtorEq, h, ne_eq, not_true, false_and]
  · next h => rw [Except.error.injEq, and_iff_right h, eq_comm]

theorem problemIf_eq_nil_iff {broken : Bool} {p : Problem} :
    problemIf broken p = [] ↔ broken = false := by
  cases broken <;> simp [problemIf]

theorem problems_eq_nil_iff {s : Settings} : s.problems = [] ↔
    (∃ address, SocketAddress.ofString? s.listener.bindAddress = some address) ∧
      1 ≤ s.timeouts.connectSecs ∧ 1 ≤ s.timeouts.requestSecs ∧
      Ascii.lower s.observability.logLevel ∈ logLevels := by
  simp only [problems, List.append_eq_nil_iff, problemIf_eq_nil_iff, and_assoc,
    Option.isNone_eq_false_iff, Option.isSome_iff_exists, beq_eq_false_iff_ne,
    ← Nat.one_le_iff_ne_zero, Bool.not_eq_eq_eq_not, Bool.not_false, List.contains_iff_mem]

theorem mem_problemIf {broken : Bool} {p q : Problem} :
    q ∈ problemIf broken p ↔ broken = true ∧ q = p := by
  cases broken <;> simp [problemIf]

/-- The level is found wrong where it is none of the five. -/
theorem logLevel_mem_problems_iff {s : Settings} :
    Problem.logLevel s.observability.logLevel ∈ s.problems ↔
      Ascii.lower s.observability.logLevel ∉ logLevels := by
  simp [problems, mem_problemIf]

theorem problems_default : ({} : Settings).problems = [] := by
  rfl

end Settings

/-! ## The command line -/

namespace CommandLine

/-- The argument of an option that its value is joined to. -/
def argument : Setting → String → String
  | .config, value => "--config=" ++ value
  | .bind, value => "--bind=" ++ value

theorem token_argument (setting : Setting) (value : String) :
    token (argument setting value) = .setting setting (some value) := by
  cases setting with
  | config =>
    have h : (argument .config value).toList = "--config=".toList ++ value.toList :=
      String.toList_append ..
    simp only [token, h]
    exact congrArg (fun value => Token.setting .config (some value)) value.ofList_toList
  | bind =>
    have h : (argument .bind value).toList = "--bind=".toList ++ value.toList :=
      String.toList_append ..
    simp only [token, h]
    exact congrArg (fun value => Token.setting .bind (some value)) value.ofList_toList

/-- A spelling of a command line. -/
def spelled (c : CommandLine) : List String :=
  c.config.toList.map (argument .config) ++ c.bind.toList.map (argument .bind)

/-- Every command line whose file has a name can be spelled. -/
theorem ofArguments_spelled {c : CommandLine} (h : c.config ≠ some "") :
    ofArguments c.spelled = .run c := by
  obtain ⟨config, bind⟩ := c
  cases config with
  | none => cases bind <;> simp [ofArguments, spelled, token_argument, read, assign]
  | some path =>
    have hname : path ≠ "" := fun hempty => h (congrArg some hempty)
    cases bind <;> simp [ofArguments, spelled, token_argument, read, assign, hname]

end CommandLine

/-! ## A start -/

namespace Launch

/-- The settings of a command line but for its address: those that its file holds, or the defaults
if it names no file. -/
inductive Given (host : Host) (c : CommandLine) : Settings → Prop
  | defaults (hc : c.config = none) : Given host c {}
  | file {path : String} {text : String} {root : Toml.Entries} {s : Settings}
      (hc : c.config = some path) (hfile : host.file path = .ok (utf8 text))
      (hroot : Toml.Document.read? text = some root) (hs : Settings.ofDocument root = .ok s) :
      Given host c s

/-- Settings at the address of a command line, if it gives one. -/
def placed (c : CommandLine) (s : Settings) : Settings :=
  { s with listener := { bindAddress := c.bind.getD s.listener.bindAddress } }

/-- Why a command line comes to no settings to start with. -/
inductive Fault (host : Host) (c : CommandLine) : SettingsError → Prop
  /-- The file cannot be read. -/
  | unread {path : String} {error : IoError} (hc : c.config = some path)
      (hfile : host.file path = .error error) : Fault host c (.io error)
  /-- It holds no text. -/
  | noText {path : String} {content : Bytes} (hc : c.config = some path)
      (hfile : host.file path = .ok content) (htext : ∀ text, utf8 text ≠ content) :
      Fault host c (.io .invalidUtf8)
  /-- The text is no document. -/
  | notToml {path : String} {text : String} (hc : c.config = some path)
      (hfile : host.file path = .ok (utf8 text)) (hroot : Toml.Document.read? text = none) :
      Fault host c .notToml
  /-- The document fits no settings. -/
  | misfit {path : String} {text : String} {root : Toml.Entries} {m : Misfit}
      (hc : c.config = some path) (hfile : host.file path = .ok (utf8 text))
      (hroot : Toml.Document.read? text = some root)
      (hs : Settings.ofDocument root = .error m) : Fault host c (.misfit m)
  /-- The settings of the file are not valid. -/
  | invalid {s : Settings} (hs : Given host c s) (h : s.problems ≠ []) :
      Fault host c (.invalid s.problems)
  /-- They are, but not at the address of the command line. -/
  | misplaced {s : Settings} (hs : Given host c s) (hvalid : s.problems = [])
      (h : (placed c s).problems ≠ []) : Fault host c (.invalid (placed c s).problems)

/-- The settings of a command line but for its address, if they are valid. -/
def loaded (host : Host) (c : CommandLine) : Except SettingsError Settings :=
  match c.config with
  | none => .ok {}
  | some path =>
    match host.file path with
    | .error error => .error (.io error)
    | .ok content => Settings.load content

/-- Loaded settings at the address of a command line, checked again if it gives one. -/
def moved (c : CommandLine) (s : Settings) : Except SettingsError Settings :=
  match c.bind with
  | none => .ok s
  | some address => Settings.check { s with listener := { bindAddress := address } }

theorem configure_eq (host : Host) (c : CommandLine) :
    configure host c = loaded host c >>= moved c := by
  cases hconfig : c.config with
  | none =>
    simp only [configure, loaded, hconfig]
    rfl
  | some path =>
    simp only [configure, loaded, hconfig]
    cases host.file path <;> rfl

/-- Valid settings that stay where they are need no second check. -/
theorem moved_eq {c : CommandLine} {s : Settings} (h : s.problems = []) :
    moved c s = (placed c s).check := by
  cases hbind : c.bind with
  | none =>
    have hplaced : placed c s = s := by rw [placed, hbind, Option.getD_none]
    rw [hplaced, Settings.check_eq_ok_iff.mpr ⟨h, rfl⟩]
    simp only [moved, hbind]
  | some address => simp only [moved, placed, hbind, Option.getD_some]

/-- The settings are loaded and valid, or there is a reason why not. -/
theorem loaded_cases (host : Host) (c : CommandLine) :
    (∃ s, loaded host c = .ok s ∧ Given host c s ∧ s.problems = []) ∨
      ∃ error, loaded host c = .error error ∧ Fault host c error := by
  unfold loaded
  split
  · next hc => exact .inl ⟨{}, rfl, .defaults hc, Settings.problems_default⟩
  · next path hc =>
    split
    · next error hfile => exact .inr ⟨_, rfl, .unread hc hfile⟩
    · next content hfile =>
      unfold Settings.load
      split
      · next htext =>
        refine .inr ⟨_, rfl, .noText hc hfile fun text h => ?_⟩
        rw [ofUtf8?_eq_some_iff.mpr h] at htext
        cases htext
      · next text htext =>
        obtain rfl := ofUtf8?_eq_some_iff.mp htext
        unfold Settings.parse
        split
        · next hroot => exact .inr ⟨_, rfl, .notToml hc hfile hroot⟩
        · next root hroot =>
          split
          · next m hs => exact .inr ⟨_, rfl, .misfit hc hfile hroot hs⟩
          · next s hs =>
            have hgiven : Given host c s := .file hc hfile hroot hs
            by_cases hproblems : s.problems = []
            · exact .inl ⟨s, Settings.check_eq_ok_iff.mpr ⟨hproblems, rfl⟩, hgiven, hproblems⟩
            · exact .inr ⟨_, Settings.check_eq_error_iff.mpr ⟨hproblems, rfl⟩,
                .invalid hgiven hproblems⟩

/-- The settings are those given, at the address of the command line, and valid at either address,
or there is a reason why not. -/
theorem configure_cases (host : Host) (c : CommandLine) :
    (∃ s, configure host c = .ok (placed c s) ∧ Given host c s ∧ s.problems = [] ∧
      (placed c s).problems = []) ∨
      ∃ error, configure host c = .error error ∧ Fault host c error := by
  rw [configure_eq]
  rcases loaded_cases host c with ⟨s, hload, hgiven, hvalid⟩ | ⟨error, hload, hfault⟩
  · have hmoved : (loaded host c >>= moved c) = (placed c s).check := by
      rw [hload, ← moved_eq hvalid]
      rfl
    rw [hmoved]
    by_cases hproblems : (placed c s).problems = []
    · exact .inl ⟨s, Settings.check_eq_ok_iff.mpr ⟨hproblems, rfl⟩, hgiven, hvalid, hproblems⟩
    · exact .inr ⟨_, Settings.check_eq_error_iff.mpr ⟨hproblems, rfl⟩,
        .misplaced hgiven hvalid hproblems⟩
  · exact .inr ⟨error, by rw [hload]; rfl, hfault⟩

theorem start_of_ok {host : Host} {arguments : List String} {c : CommandLine} {s : Settings}
    (hc : CommandLine.ofArguments arguments = .run c) (h : configure host c = .ok s) :
    start host arguments = listen host s := by
  simp only [start, hc, h]

theorem start_of_error {host : Host} {arguments : List String} {c : CommandLine}
    {error : SettingsError} (hc : CommandLine.ofArguments arguments = .run c)
    (h : configure host c = .error error) : start host arguments = .rejected error := by
  simp only [start, hc, h]

theorem settings?_listen (host : Host) (s : Settings) : (listen host s).settings? = some s := by
  unfold listen
  split
  · rfl
  · split <;> rfl

/-- A start that gets past its settings has valid ones, and listens at their address. -/
theorem valid_of_settings? {host : Host} {arguments : List String} {c : CommandLine}
    (hc : CommandLine.ofArguments arguments = .run c) {s : Settings}
    (hs : (start host arguments).settings? = some s) :
    (∃ given, Given host c given ∧ given.problems = [] ∧ s = placed c given) ∧ s.problems = [] ∧
      start host arguments = listen host s := by
  rcases configure_cases host c with ⟨given, h, hgiven, hvalid, hplaced⟩ | ⟨error, h, -⟩
  · have hstart := start_of_ok hc h
    rw [hstart, settings?_listen] at hs
    cases hs
    exact ⟨⟨given, hgiven, hvalid, rfl⟩, hplaced, hstart⟩
  · rw [start_of_error hc h] at hs
    cases hs

/-- A start that does not get past its settings does not depend on who would listen. -/
theorem rejected_of_settings? {host : Host} {arguments : List String} {c : CommandLine}
    (hc : CommandLine.ofArguments arguments = .run c)
    (hs : (start host arguments).settings? = none) :
    ∃ error, Fault host c error ∧
      ∀ listen, start { host with listen := listen } arguments = .rejected error := by
  rcases configure_cases host c with ⟨given, h, -⟩ | ⟨error, h, hfault⟩
  · rw [start_of_ok hc h, settings?_listen] at hs
    cases hs
  · exact ⟨error, hfault, fun listen => start_of_error hc h⟩

/-- A start that gets past its settings has valid ones, namely those given, which are valid as they
are, at the address of the command line. Every other start ends with the reason why there are none,
before anything is logged and before anyone is asked to listen. -/
theorem starts_validated (host : Host) {arguments : List String} {c : CommandLine}
    (hc : CommandLine.ofArguments arguments = .run c) :
    (∀ s, (start host arguments).settings? = some s →
      (∃ given, Given host c given ∧ given.check = .ok given ∧
        s = { given with
          listener := { bindAddress := c.bind.getD given.listener.bindAddress } }) ∧
      s.check = .ok s ∧
      (∃ address, SocketAddress.ofString? s.listener.bindAddress = some address ∧
        start host arguments = match host.listen address with
          | .error error => .unbound s error
          | .ok bound => .serving s bound) ∧
      1 ≤ s.timeouts.connectSecs ∧ 1 ≤ s.timeouts.requestSecs ∧
      ∃ level ∈ ["trace", "debug", "info", "warn", "error"],
        List.Forall₂ Ascii.SameLetter (utf8 s.observability.logLevel) (utf8 level) ∧
        s.observability.directives =
          "wss_handshake_tunnel=" ++ level ++ ",tower_http=" ++ level) ∧
    ((start host arguments).settings? = none → ∃ error, Fault host c error ∧
      start host arguments = .rejected error ∧ (start host arguments).log = [] ∧
      (∀ isStopped, (start host arguments).exitCode isStopped = some 1) ∧
      ∀ listen, start { host with listen := listen } arguments = .rejected error) ∧
    ∀ s : Settings, Problem.logLevel s.observability.logLevel ∉ s.problems ↔
      ∃ level ∈ ["trace", "debug", "info", "warn", "error"], s.observability.directives =
        "wss_handshake_tunnel=" ++ level ++ ",tower_http=" ++ level := by
  refine ⟨fun s hs => ?_, fun hs => ?_, fun s => ?_⟩
  · obtain ⟨⟨given, hgiven, hloaded, hplaced⟩, hvalid, hstart⟩ := valid_of_settings? hc hs
    obtain ⟨⟨address, haddress⟩, hconnect, hrequest, hlevel⟩ :=
      Settings.problems_eq_nil_iff.mp hvalid
    refine ⟨⟨given, hgiven, Settings.check_eq_ok_iff.mpr ⟨hloaded, rfl⟩, hplaced⟩,
      Settings.check_eq_ok_iff.mpr ⟨hvalid, rfl⟩, ⟨address, haddress, ?_⟩, hconnect, hrequest, _,
      hlevel, Settings.Observability.sameLetters_of_lower_eq hlevel rfl,
      Settings.Observability.directives_eq_iff.mpr rfl⟩
    rw [hstart]
    unfold listen
    cases hbound : host.listen address <;> simp only [haddress, hbound]
  · obtain ⟨error, hfault, hstart⟩ := rejected_of_settings? hc hs
    have hrejected : start host arguments = .rejected error := hstart host.listen
    rw [hrejected]
    exact ⟨error, hfault, rfl, rfl, fun _ => rfl, hstart⟩
  · rw [Settings.logLevel_mem_problems_iff, not_not]
    exact Settings.Observability.lower_mem_logLevels_iff

/-- A file that capitalises its log level. -/
def capitalsText : String := "[observability]\nlog_level = \"Warn\"\n"

/-- Surroundings with this file, in which every address is to be had. -/
def capitals : Host where
  file _ := .ok (utf8 capitalsText)
  listen := .ok

theorem load_capitals :
    Settings.load (utf8 capitalsText) = .ok { observability := ⟨"Warn"⟩ } := by
  have htext : ofUtf8? (utf8 capitalsText) = some capitalsText := ofUtf8?_eq_some_iff.mpr rfl
  have hroot : Toml.Document.read? capitalsText =
      some [("observability", .table .header [("log_level", .string "Warn")])] := by cbv
  rw [Settings.load, htext]
  simp only [Settings.parse, hroot]
  exact Settings.check_eq_ok_iff.mpr ⟨rfl, rfl⟩

/-- The command line with the file and an address. -/
def capitalsAt (address : String) : CommandLine :=
  ⟨some "tunnel.toml", some address⟩

theorem starts_capitals :
    CommandLine.ofArguments ["--config=tunnel.toml", "--bind=127.0.0.1:7000"] =
      .run (capitalsAt "127.0.0.1:7000") ∧
    (∃ s, (start capitals ["--config=tunnel.toml", "--bind=127.0.0.1:7000"]).settings? = some s ∧
      s = { listener := ⟨"127.0.0.1:7000"⟩, observability := ⟨"Warn"⟩ } ∧ s.check = .ok s ∧
      ∃ level ∈ ["trace", "debug", "info", "warn", "error"], s.observability.directives =
        "wss_handshake_tunnel=" ++ level ++ ",tower_http=" ++ level) ∧
    (start capitals ["--config=tunnel.toml", "--bind=localhost"]).settings? = none ∧
    ∃ error, Fault capitals (capitalsAt "localhost") error ∧
      ∀ listen, start { capitals with listen := listen }
        ["--config=tunnel.toml", "--bind=localhost"] = .rejected error := by
  have hc (address : String) :
      CommandLine.ofArguments (capitalsAt address).spelled = .run (capitalsAt address) :=
    CommandLine.ofArguments_spelled (by simp [capitalsAt])
  have hconfigure (address : String) : configure capitals (capitalsAt address) =
      Settings.check { listener := ⟨address⟩, observability := ⟨"Warn"⟩ } := by
    have hloaded : loaded capitals (capitalsAt address) = .ok { observability := ⟨"Warn"⟩ } :=
      load_capitals
    rw [configure_eq, hloaded]
    rfl
  have hserved : (start capitals (capitalsAt "127.0.0.1:7000").spelled).settings? =
      some { listener := ⟨"127.0.0.1:7000"⟩, observability := ⟨"Warn"⟩ } := by
    rw [start_of_ok (hc _) (hconfigure _)]
    rfl
  have hrejected : (start capitals (capitalsAt "localhost").spelled).settings? = none := by
    rw [start_of_error (hc _) (hconfigure _)]
    rfl
  obtain ⟨-, hcheck, -, -, -, level, hlevel, -, hdirectives⟩ :=
    (starts_validated capitals (hc "127.0.0.1:7000")).1 _ hserved
  obtain ⟨error, hfault, -, -, -, hstart⟩ :=
    (starts_validated capitals (hc "localhost")).2.1 hrejected
  exact ⟨hc "127.0.0.1:7000", ⟨_, hserved, rfl, hcheck, level, hlevel, hdirectives⟩, hrejected,
    error, hfault, hstart⟩

end Launch

end UpgradeBridge
