/-
The settings of a document, field by field. Reading a document goes over it once,
section by section and key by key; here each field has a value of its own, which
is the one the document gives it or its default, and no other field has a say in
it.

`Owns` ties a field of a group to its key and position: its own entry sets it,
and no other field's entry touches it. What one entry does under these terms, the
run over all entries of a table or items of an array does too.
-/
import Mathlib.Data.List.Basic
import UpgradeBridge.Proofs.DistinctKeys
import UpgradeBridge.Settings.Schema

namespace UpgradeBridge

namespace Toml

/-- The value that a section gives a field, by its key in a table or its position in an array. -/
def Value.given? (key : String) (position : Nat) : Value → Option Value
  | .table _ entries => Entries.get? entries key
  | .array items => items[position]?
  | _ => none

/-- A table or an array of values. -/
def Value.isGroup : Value → Bool
  | .table _ _ => true
  | .array _ => true
  | _ => false

end Toml

namespace Settings

open Toml (Value Entries)

/-! ## What a document gives -/

def text? : Value → Option String
  | .string text => some text
  | _ => none

/-- A whole number that is not negative. -/
def count? : Value → Option Nat
  | .integer (.ofNat n) => some n
  | _ => none

def boolean? : Value → Option Bool
  | .boolean value => some value
  | _ => none

/-- The alphabet of a name. -/
def alphabetOf? (name : String) : Option Base64.Alphabet :=
  if name = "standard" then some .standard
  else if name = "url_safe" then some .urlSafe
  else none

/-- An alphabet by its name, or as a table whose only key is its name, with nothing in it. -/
def alphabet? : Value → Option Base64.Alphabet
  | .string name => alphabetOf? name
  | .table _ [(name, .table _ [])] => alphabetOf? name
  | .table _ [(name, .array [])] => alphabetOf? name
  | _ => none

/-- What kind of value a field takes. -/
inductive Kind
  | text
  | count
  | boolean
  | alphabet
  deriving DecidableEq, Repr

/-- A value is of a kind. -/
def Kind.admits : Kind → Value → Bool
  | .text, v => (text? v).isSome
  | .count, v => (count? v).isSome
  | .boolean, v => (boolean? v).isSome
  | .alphabet, v => (alphabet? v).isSome

/-- The sections, and their fields in the order in which they are declared. -/
def layout : List (String × List (String × Kind)) := [
  ("listener", [("bind_address", .text)]),
  ("timeouts", [("connect_secs", .count), ("request_secs", .count)]),
  ("handshake", [("enabled", .boolean), ("accept_alphabet", .alphabet)]),
  ("observability", [("log_level", .text)])]

/-- The value that a document gives a field. -/
def given? (root : Entries) (group key : String) (position : Nat) : Option Value :=
  (root.get? group).bind (·.given? key position)

/-- Each known section, if it is there, is a table or an array, and what it gives to a known field is
of the field's kind. -/
def Fits (root : Entries) : Prop :=
  ∀ g ∈ layout, (∀ v, root.get? g.1 = some v → v.isGroup = true) ∧
    ∀ i f, g.2[i]? = some f → ∀ v, given? root g.1 f.1 i = some v → f.2.admits v = true

/-- The defaults, overlaid with what a document gives. -/
def overlay (root : Entries) : Settings where
  listener := {
    bindAddress := ((given? root "listener" "bind_address" 0).bind text?).getD "0.0.0.0:8080" }
  timeouts := {
    connectSecs := ((given? root "timeouts" "connect_secs" 0).bind count?).getD 5
    requestSecs := ((given? root "timeouts" "request_secs" 1).bind count?).getD 30 }
  handshake := {
    enabled := ((given? root "handshake" "enabled" 0).bind boolean?).getD true
    acceptAlphabet := ((given? root "handshake" "accept_alphabet" 1).bind alphabet?).getD .standard }
  observability := { logLevel := ((given? root "observability" "log_level" 0).bind text?).getD "info" }

/-! ## Single values -/

namespace Schema

theorem text_eq_ok {v : Value} {t : String} : text v = .ok t ↔ text? v = some t := by
  cases v <;> simp [text, text?]

theorem count_eq_ok {v : Value} {n : Nat} : count v = .ok n ↔ count? v = some n := by
  cases v with
  | integer value => cases value <;> simp [count, count?]
  | _ => simp [count, count?]

theorem boolean_eq_ok {v : Value} {b : Bool} : boolean v = .ok b ↔ boolean? v = some b := by
  cases v <;> simp [boolean, boolean?]

theorem alphabetNamed_eq_ok {name : String} {a : Base64.Alphabet} :
    alphabetNamed name = .ok a ↔ alphabetOf? name = some a := by
  simp only [alphabetNamed, alphabetOf?, beq_iff_eq]
  split
  · simp
  · split <;> simp

theorem alphabet_eq_ok {v : Value} {a : Base64.Alphabet} (h : alphabet? v = some a) :
    alphabet v = .ok a := by
  unfold alphabet? at h
  split at h
  · exact alphabetNamed_eq_ok.mpr h
  · simp [alphabet, alphabetNamed_eq_ok.mpr h, emptyPayload]
    rfl
  · simp [alphabet, alphabetNamed_eq_ok.mpr h, emptyPayload]
    rfl
  · cases h

/-! ## Fields of a group -/

variable {α β : Type} {g : Group α} {fields : List (Field α)} {key : String} {i : Nat}
  {read : Value → Option β} {proj : α → β}

/-- A projection of the settings is in the hands of one field: what is read of the field's value
becomes its value, and no other field touches it. -/
structure Owns (fields : List (Field α)) (key : String) (i : Nat) (read : Value → Option β)
    (proj : α → β) : Prop where
  here : ∃ f, fields[i]? = some f ∧ f.key = key
  sets : ∀ f, fields[i]? = some f → ∀ {s s' v b}, f.assign s v = .ok s' → read v = some b →
    proj s' = b
  spares : ∀ j f, fields[j]? = some f → j ≠ i → f.key ≠ key ∧
    ∀ {s s' v}, f.assign s v = .ok s' → proj s' = proj s

theorem mem_of_find? {key : String} {f : Field α}
    (h : g.fields.find? (fun f => f.key == key) = some f) :
    f.key = key ∧ ∃ j : Nat, g.fields[j]? = some f := by
  have hkey : f.key = key := by simpa using List.find?_some h
  exact ⟨hkey, List.mem_iff_getElem?.mp (List.mem_of_find?_eq_some h)⟩

namespace Owns

/-- The entry of the owning field. -/
theorem byKey_self (h : Owns g.fields key i read proj) {s s' : α} {v : Value} {b : β}
    (hok : g.byKey s (key, v) = .ok s') (hread : read v = some b) : proj s' = b := by
  unfold Group.byKey at hok
  split at hok
  · next f hfind =>
    obtain ⟨hkey, j, hj⟩ := mem_of_find? hfind
    by_cases hji : j = i
    · subst hji
      exact h.sets f hj hok hread
    · exact absurd hkey (h.spares j f hj hji).1
  · next hfind =>
    obtain ⟨f, hf, hkey⟩ := h.here
    have hmem := List.mem_iff_getElem?.mpr ⟨i, hf⟩
    have hne := List.find?_eq_none.mp hfind f hmem
    simp [hkey] at hne

theorem byKey_other (h : Owns g.fields key i read proj) {s s' : α} {e : String × Value}
    (hne : e.1 ≠ key) (hok : g.byKey s e = .ok s') : proj s' = proj s := by
  unfold Group.byKey at hok
  split at hok
  · next f hfind =>
    obtain ⟨hkey, j, hj⟩ := mem_of_find? hfind
    by_cases hji : j = i
    · subst hji
      obtain ⟨f', hf', hkey'⟩ := h.here
      cases hj.symm.trans hf'
      exact absurd (hkey.symm.trans hkey') hne
    · exact (h.spares j f hj hji).2 hok
  · cases hok
    rfl

/-- The entries of a table. -/
theorem foldlM_byKey (h : Owns g.fields key i read proj) {entries : Entries} : ∀ {s s' : α},
    (entries.map Prod.fst).Nodup → entries.foldlM g.byKey s = .ok s' →
      (∀ v, entries.get? key = some v → (read v).isSome) →
      proj s' = ((entries.get? key).bind read).getD (proj s) := by
  induction entries with
  | nil =>
    intro s s' _ hok _
    cases hok
    rfl
  | cons e rest ih =>
    intro s s' hnodup hok hread
    obtain ⟨hfresh, hrest⟩ := List.nodup_cons.mp hnodup
    rw [List.foldlM_cons] at hok
    cases hmid : g.byKey s e with
    | error error =>
      rw [hmid] at hok
      cases hok
    | ok mid =>
      rw [hmid] at hok
      rw [Entries.get?_cons] at hread ⊢
      by_cases hkey : e.1 = key
      · -- the rest of the table does not have the key again
        have hnone : Entries.get? rest key = none :=
          Entries.get?_eq_none_iff.mpr (hkey ▸ hfresh)
        rw [if_pos hkey] at hread ⊢
        obtain ⟨b, hb⟩ := Option.isSome_iff_exists.mp (hread _ rfl)
        have hown : proj mid = b := by
          subst hkey
          exact h.byKey_self hmid hb
        have hkept := ih hrest hok (by simp [hnone])
        rw [hkept, hnone, hown, Option.bind_some, hb]
        rfl
      · rw [if_neg hkey] at hread ⊢
        rw [ih hrest hok hread, h.byKey_other hkey hmid]

theorem tail {f : Field α} (h : Owns (f :: fields) key (i + 1) read proj) :
    Owns fields key i read proj where
  here := by simpa using h.here
  sets f' hf' := h.sets f' (by simpa using hf')
  spares j f' hf' hj := h.spares (j + 1) f' (by simpa using hf') (by omega)

theorem byPosition_of_spares {items : List Value} : ∀ {s s' : α},
    (∀ f ∈ fields, ∀ {s s' v}, f.assign s v = .ok s' → proj s' = proj s) →
    Group.byPosition s fields items = .ok s' → proj s' = proj s := by
  induction fields generalizing items with
  | nil =>
    intro s s' _ hok
    cases hok
    rfl
  | cons f fields ih =>
    intro s s' hspares hok
    cases items with
    | nil =>
      cases hok
      rfl
    | cons v items =>
      rw [Group.byPosition] at hok
      cases hmid : f.assign s v with
      | error error =>
        rw [hmid] at hok
        cases hok
      | ok mid =>
        rw [hmid] at hok
        have hrest := ih (fun f' hf' => hspares f' (List.mem_cons_of_mem _ hf')) hok
        exact hrest.trans (hspares f (List.mem_cons_self ..) hmid)

/-- The items of an array. -/
theorem byPosition (h : Owns fields key i read proj) {items : List Value} : ∀ {s s' : α},
    Group.byPosition s fields items = .ok s' → (∀ v, items[i]? = some v → (read v).isSome) →
      proj s' = (items[i]?.bind read).getD (proj s) := by
  induction fields generalizing items i with
  | nil =>
    obtain ⟨f, hf, -⟩ := h.here
    cases hf
  | cons f fields ih =>
    intro s s' hok hread
    cases items with
    | nil =>
      cases hok
      rfl
    | cons v items =>
      rw [Group.byPosition] at hok
      cases hmid : f.assign s v with
      | error error =>
        rw [hmid] at hok
        cases hok
      | ok mid =>
        rw [hmid] at hok
        cases i with
        | zero =>
          obtain ⟨b, hb⟩ := Option.isSome_iff_exists.mp (hread v rfl)
          have hown : proj mid = b := h.sets f rfl hmid hb
          have hrest : proj s' = proj mid := by
            refine byPosition_of_spares (fun f' hf' => ?_) hok
            obtain ⟨j, hj⟩ := List.mem_iff_getElem?.mp hf'
            exact (h.spares (j + 1) f' (by simpa using hj) (by omega)).2
          simp only [List.getElem?_cons_zero, Option.bind_some, hb, Option.getD_some]
          exact hrest.trans hown
        | succ i =>
          have hspared : proj mid = proj s := (h.spares 0 f rfl (by omega)).2 hmid
          rw [List.getElem?_cons_succ, ← hspared]
          exact ih h.tail hok (by simpa using hread)

/-- A section, read into settings that hold the defaults. -/
theorem read_eq (h : Owns g.fields key i read proj) {d s' : α} {v : Value}
    (hgroup : v.isGroup = true) (hdistinct : v.Distinct) (hok : g.read d v = .ok s')
    (hread : ∀ x, v.given? key i = some x → (read x).isSome) :
    proj s' = ((v.given? key i).bind read).getD (proj d) := by
  unfold Value.isGroup at hgroup
  split at hgroup
  · next origin entries =>
    cases hdistinct with
    | scalar hscalar => cases hscalar
    | table hnodup _ => exact h.foldlM_byKey hnodup hok hread
  · exact h.byPosition hok hread
  · cases hgroup

end Owns

/-! ## Reading succeeds -/

theorem foldlM_byKey_ok {entries : Entries}
    (h : ∀ e ∈ entries, ∀ f ∈ g.fields, f.key = e.1 → ∀ s, ∃ s', f.assign s e.2 = .ok s') :
    ∀ s, ∃ s', entries.foldlM g.byKey s = .ok s' := by
  induction entries with
  | nil => exact fun s => ⟨s, rfl⟩
  | cons e rest ih =>
    intro s
    have hfirst : ∃ mid, g.byKey s e = .ok mid := by
      unfold Group.byKey
      split
      · next f hfind =>
        obtain ⟨hkey, j, hj⟩ := mem_of_find? hfind
        exact h e (List.mem_cons_self ..) f (List.mem_iff_getElem?.mpr ⟨j, hj⟩) hkey s
      · exact ⟨s, rfl⟩
    obtain ⟨mid, hmid⟩ := hfirst
    obtain ⟨s', hs'⟩ := ih (fun e' he' => h e' (List.mem_cons_of_mem _ he')) mid
    refine ⟨s', ?_⟩
    rw [List.foldlM_cons, hmid]
    exact hs'

theorem byPosition_ok {items : List Value}
    (h : ∀ (i : Nat) f v, fields[i]? = some f → items[i]? = some v → ∀ s, ∃ s', f.assign s v = .ok s') :
    ∀ s, ∃ s', Group.byPosition s fields items = .ok s' := by
  induction fields generalizing items with
  | nil => exact fun s => ⟨s, rfl⟩
  | cons f fields ih =>
    intro s
    cases items with
    | nil => exact ⟨s, rfl⟩
    | cons v items =>
      obtain ⟨mid, hmid⟩ := h 0 f v rfl rfl s
      obtain ⟨s', hs'⟩ := ih (fun i f' v' hf hv => h (i + 1) f' v' (by simpa using hf)
        (by simpa using hv)) mid
      refine ⟨s', ?_⟩
      rw [Group.byPosition, hmid]
      exact hs'

/-- A field has a key and takes every value of a kind. -/
structure Field.Takes (f : Field α) (k : String × Kind) : Prop where
  key : f.key = k.1
  takes : ∀ s v, k.2.admits v = true → ∃ s', f.assign s v = .ok s'

/-- The fields of a group are those of the layout. -/
abbrev Follows (fields : List (Field α)) (kinds : List (String × Kind)) : Prop :=
  List.Forall₂ Field.Takes fields kinds

theorem Follows.getElem? {kinds : List (String × Kind)} (h : Follows fields kinds) {f : Field α} :
    ∀ {i : Nat}, fields[i]? = some f → ∃ k, kinds[i]? = some k ∧ f.Takes k := by
  induction h with
  | nil => exact fun hf => nomatch hf
  | cons hfirst _ ih =>
    intro i hf
    cases i with
    | zero =>
      cases hf
      exact ⟨_, rfl, hfirst⟩
    | succ i => exact ih hf

theorem Follows.read_ok {kinds : List (String × Kind)} (h : Follows g.fields kinds) {v : Value}
    (hgroup : v.isGroup = true) (hdistinct : v.Distinct)
    (hgiven : ∀ i k, kinds[i]? = some k → ∀ x, v.given? k.1 i = some x → k.2.admits x = true)
    (d : α) : ∃ s', g.read d v = .ok s' := by
  have hassign : ∀ (i : Nat) f, g.fields[i]? = some f → ∀ x, v.given? f.key i = some x →
      ∀ s, ∃ s', f.assign s x = .ok s' := by
    intro i f hf x hx s
    obtain ⟨k, hk, htakes⟩ := h.getElem? hf
    exact htakes.takes s x (hgiven i k hk x (htakes.key ▸ hx))
  unfold Value.isGroup at hgroup
  split at hgroup
  · next origin entries =>
    cases hdistinct with
    | scalar hscalar => cases hscalar
    | table hnodup _ =>
      refine foldlM_byKey_ok (fun e he f hf hkey s => ?_) d
      obtain ⟨i, hi⟩ := List.mem_iff_getElem?.mp hf
      exact hassign i f hi e.2 (hkey ▸ Entries.get?_of_mem hnodup he) s
  · exact byPosition_ok (fun i f x hf hx => hassign i f hf x hx) d
  · cases hgroup

/-! ## The fields of the settings -/

theorem of_assign {γ : Type} {x : Except Misfit γ} {set : γ → α} {s' : α}
    (h : (do return set (← x)) = Except.ok s') : ∃ b, x = .ok b ∧ s' = set b := by
  cases x with
  | error error => cases h
  | ok b =>
    cases h
    exact ⟨b, rfl, rfl⟩

theorem sets_of_assign {x : Except Misfit β} {set : β → α} {s' : α} {b : β}
    (h : (do return set (← x)) = Except.ok s') (hset : ∀ b, proj (set b) = b) (hread : x = .ok b) :
    proj s' = b := by
  obtain ⟨b', hb', rfl⟩ := of_assign h
  cases hb'.symm.trans hread
  exact hset b

theorem spares_of_assign {γ : Type} {x : Except Misfit γ} {set : γ → α} {s s' : α}
    (h : (do return set (← x)) = Except.ok s') (hset : ∀ b, proj (set b) = proj s) :
    proj s' = proj s := by
  obtain ⟨b, -, rfl⟩ := of_assign h
  exact hset b

theorem Owns.intro {f : Field α} (hf : fields[i]? = some f) (hkey : f.key = key)
    (hsets : ∀ {s s' v b}, f.assign s v = .ok s' → read v = some b → proj s' = b)
    (hspares : (fields.eraseIdx i).Forall fun f' => f'.key ≠ key ∧
      ∀ {s s' v}, f'.assign s v = .ok s' → proj s' = proj s) : Owns fields key i read proj where
  here := ⟨f, hf, hkey⟩
  sets f' hf' := by
    cases hf'.symm.trans hf
    exact hsets
  spares j f' hf' hj := by
    have hmem : f' ∈ fields.eraseIdx i := List.mem_eraseIdx_iff_getElem?.mpr ⟨j, hj, hf'⟩
    exact List.forall_iff_forall_mem.mp hspares f' hmem

theorem owns_bindAddress : Owns listener.fields "bind_address" 0 text? Listener.bindAddress :=
  .intro rfl rfl (fun hok hread => sets_of_assign hok (fun _ => rfl) (text_eq_ok.mpr hread)) trivial

theorem owns_connectSecs : Owns timeouts.fields "connect_secs" 0 count? Timeouts.connectSecs :=
  .intro rfl rfl (fun hok hread => sets_of_assign hok (fun _ => rfl) (count_eq_ok.mpr hread))
    ⟨by decide, fun hok => spares_of_assign hok fun _ => rfl⟩

theorem owns_requestSecs : Owns timeouts.fields "request_secs" 1 count? Timeouts.requestSecs :=
  .intro rfl rfl (fun hok hread => sets_of_assign hok (fun _ => rfl) (count_eq_ok.mpr hread))
    ⟨by decide, fun hok => spares_of_assign hok fun _ => rfl⟩

theorem owns_enabled : Owns handshake.fields "enabled" 0 boolean? Handshake.enabled :=
  .intro rfl rfl (fun hok hread => sets_of_assign hok (fun _ => rfl) (boolean_eq_ok.mpr hread))
    ⟨by decide, fun hok => spares_of_assign hok fun _ => rfl⟩

theorem owns_acceptAlphabet :
    Owns handshake.fields "accept_alphabet" 1 alphabet? Handshake.acceptAlphabet :=
  .intro rfl rfl (fun hok hread => sets_of_assign hok (fun _ => rfl) (alphabet_eq_ok hread))
    ⟨by decide, fun hok => spares_of_assign hok fun _ => rfl⟩

theorem owns_logLevel : Owns observability.fields "log_level" 0 text? Observability.logLevel :=
  .intro rfl rfl (fun hok hread => sets_of_assign hok (fun _ => rfl) (text_eq_ok.mpr hread)) trivial

theorem takes_of_parse {γ : Type} {parse : Value → Except Misfit γ} {kind : Kind}
    (hparse : ∀ v, kind.admits v = true → ∃ b, parse v = .ok b) (key : String) (set : α → γ → α) :
    Field.Takes ⟨key, fun s v => do return set s (← parse v)⟩ (key, kind) where
  key := rfl
  takes s v hadmits := by
    obtain ⟨b, hb⟩ := hparse v hadmits
    refine ⟨set s b, ?_⟩
    simp only [hb]
    rfl

theorem text_ok (v : Value) (h : Kind.text.admits v = true) : ∃ t, text v = .ok t := by
  obtain ⟨t, ht⟩ := Option.isSome_iff_exists.mp h
  exact ⟨t, text_eq_ok.mpr ht⟩

theorem count_ok (v : Value) (h : Kind.count.admits v = true) : ∃ n, count v = .ok n := by
  obtain ⟨n, hn⟩ := Option.isSome_iff_exists.mp h
  exact ⟨n, count_eq_ok.mpr hn⟩

theorem boolean_ok (v : Value) (h : Kind.boolean.admits v = true) : ∃ b, boolean v = .ok b := by
  obtain ⟨b, hb⟩ := Option.isSome_iff_exists.mp h
  exact ⟨b, boolean_eq_ok.mpr hb⟩

theorem alphabet_ok (v : Value) (h : Kind.alphabet.admits v = true) : ∃ a, alphabet v = .ok a := by
  obtain ⟨a, ha⟩ := Option.isSome_iff_exists.mp h
  exact ⟨a, alphabet_eq_ok ha⟩

theorem follows_listener : Follows listener.fields [("bind_address", .text)] :=
  .cons (takes_of_parse text_ok _ _) .nil

theorem follows_timeouts :
    Follows timeouts.fields [("connect_secs", .count), ("request_secs", .count)] :=
  .cons (takes_of_parse count_ok _ _) (.cons (takes_of_parse count_ok _ _) .nil)

theorem follows_handshake :
    Follows handshake.fields [("enabled", .boolean), ("accept_alphabet", .alphabet)] :=
  .cons (takes_of_parse boolean_ok _ _) (.cons (takes_of_parse alphabet_ok _ _) .nil)

theorem follows_observability : Follows observability.fields [("log_level", .text)] :=
  .cons (takes_of_parse text_ok _ _) .nil

/-! ## Sections -/

/-- What is read of a section, if it can be read. -/
def Group.read? (g : Group α) (d : α) (v : Value) : Option α :=
  (g.read d v).toOption

theorem Group.read_of_read? {d s' : α} {v : Value} (h : g.read? d v = some s') :
    g.read d v = .ok s' := by
  unfold read? at h
  cases hread : g.read d v with
  | error error =>
    rw [hread] at h
    cases h
  | ok s =>
    rw [hread] at h
    cases h
    rfl

theorem owns_listener : Owns sections.fields "listener" 0 (listener.read? {}) Settings.listener :=
  .intro rfl rfl
    (fun hok hread => sets_of_assign hok (fun _ => rfl) (Group.read_of_read? hread))
    ⟨⟨by decide, fun hok => spares_of_assign hok fun _ => rfl⟩,
      ⟨by decide, fun hok => spares_of_assign hok fun _ => rfl⟩,
      ⟨by decide, fun hok => spares_of_assign hok fun _ => rfl⟩⟩

theorem owns_timeouts : Owns sections.fields "timeouts" 1 (timeouts.read? {}) Settings.timeouts :=
  .intro rfl rfl
    (fun hok hread => sets_of_assign hok (fun _ => rfl) (Group.read_of_read? hread))
    ⟨⟨by decide, fun hok => spares_of_assign hok fun _ => rfl⟩,
      ⟨by decide, fun hok => spares_of_assign hok fun _ => rfl⟩,
      ⟨by decide, fun hok => spares_of_assign hok fun _ => rfl⟩⟩

theorem owns_handshake : Owns sections.fields "handshake" 2 (handshake.read? {}) Settings.handshake :=
  .intro rfl rfl
    (fun hok hread => sets_of_assign hok (fun _ => rfl) (Group.read_of_read? hread))
    ⟨⟨by decide, fun hok => spares_of_assign hok fun _ => rfl⟩,
      ⟨by decide, fun hok => spares_of_assign hok fun _ => rfl⟩,
      ⟨by decide, fun hok => spares_of_assign hok fun _ => rfl⟩⟩

theorem owns_observability :
    Owns sections.fields "observability" 3 (observability.read? {}) Settings.observability :=
  .intro rfl rfl
    (fun hok hread => sets_of_assign hok (fun _ => rfl) (Group.read_of_read? hread))
    ⟨⟨by decide, fun hok => spares_of_assign hok fun _ => rfl⟩,
      ⟨by decide, fun hok => spares_of_assign hok fun _ => rfl⟩,
      ⟨by decide, fun hok => spares_of_assign hok fun _ => rfl⟩⟩

/-! ## Documents -/

variable {root : Entries}

theorem given?_of_get? {v : Value} {name : String} (h : root.get? name = some v) (key : String)
    (i : Nat) : given? root name key i = v.given? key i := by
  rw [given?, h, Option.bind_some]

theorem read_ok_of_fits (hroot : Toml.Table.Distinct ⟨.header, root⟩) (hfits : Fits root)
    {name : String} {kinds : List (String × Kind)} (hmem : (name, kinds) ∈ layout)
    (hfollows : Follows g.fields kinds) (d : α) {v : Value} (hv : root.get? name = some v) :
    ∃ s', g.read d v = .ok s' := by
  obtain ⟨hgroup, hgiven⟩ := hfits _ hmem
  refine hfollows.read_ok (hgroup v hv) (hroot.get? hv) (fun i k hk x hx => ?_) d
  exact hgiven i k hk x ((given?_of_get? hv k.1 i).trans hx)

theorem assign_ok {γ : Type} {x : Except Misfit γ} (set : γ → α) (h : ∃ b, x = .ok b) :
    ∃ s', (do return set (← x)) = Except.ok s' := by
  obtain ⟨b, rfl⟩ := h
  exact ⟨set b, rfl⟩

theorem ofDocument_ok (hroot : Toml.Table.Distinct ⟨.header, root⟩) (hfits : Fits root) :
    ∃ s, ofDocument root = .ok s := by
  obtain ⟨hnodup, -⟩ := Toml.Table.distinct_iff.mp hroot
  refine foldlM_byKey_ok (fun e he f hf hkey s => ?_) ({} : Settings)
  have hget : root.get? f.key = some e.2 := hkey ▸ Entries.get?_of_mem hnodup he
  simp only [sections, List.mem_cons, List.not_mem_nil, or_false] at hf
  rcases hf with rfl | rfl | rfl | rfl
  · exact assign_ok _ (read_ok_of_fits hroot hfits (by simp [layout]) follows_listener _ hget)
  · exact assign_ok _ (read_ok_of_fits hroot hfits (by simp [layout]) follows_timeouts _ hget)
  · exact assign_ok _ (read_ok_of_fits hroot hfits (by simp [layout]) follows_handshake _ hget)
  · exact assign_ok _ (read_ok_of_fits hroot hfits (by simp [layout]) follows_observability _ hget)

/-- A field of a section is what the document gives it, or else its default. -/
theorem field_eq (hroot : Toml.Table.Distinct ⟨.header, root⟩) (hfits : Fits root) {s : Settings}
    (hok : ofDocument root = .ok s) {name : String} {n : Nat} {kinds : List (String × Kind)}
    (hmem : (name, kinds) ∈ layout) (hfollows : Follows g.fields kinds) {d : α}
    {section? : Settings → α} (houter : Owns sections.fields name n (g.read? d) section?)
    (hd : section? {} = d) (hinner : Owns g.fields key i read proj) {kind : Kind}
    (hkind : kinds[i]? = some (key, kind)) (hread : ∀ x, kind.admits x = true → (read x).isSome) :
    proj (section? s) = ((given? root name key i).bind read).getD (proj d) := by
  obtain ⟨hgroup, hgiven⟩ := hfits _ hmem
  obtain ⟨hnodup, -⟩ := Toml.Table.distinct_iff.mp hroot
  have hreads : ∀ v, root.get? name = some v → ∃ t, g.read d v = .ok t :=
    fun v hv => read_ok_of_fits hroot hfits hmem hfollows d hv
  have hsection := houter.foldlM_byKey hnodup hok fun v hv => by
    obtain ⟨t, ht⟩ := hreads v hv
    simp [Group.read?, ht, Except.toOption]
  cases hv : root.get? name with
  | none =>
    rw [hv, hd] at hsection
    rw [hsection, given?, hv]
    rfl
  | some v =>
    obtain ⟨t, ht⟩ := hreads v hv
    have hst : section? s = t := by
      rw [hsection, hv, Option.bind_some, Group.read?, ht]
      rfl
    rw [hst, given?_of_get? hv]
    refine hinner.read_eq (hgroup v hv) (hroot.get? hv) ht fun x hx => ?_
    exact hread x (hgiven i _ hkind x ((given?_of_get? hv key i).trans hx))

end Schema

open Schema in
/-- **A document is laid over the defaults field by field.** -/
theorem ofDocument_eq_overlay {root : Entries} (hroot : Toml.Table.Distinct ⟨.header, root⟩)
    (hfits : Fits root) : ofDocument root = .ok (overlay root) := by
  obtain ⟨s, hs⟩ := ofDocument_ok hroot hfits
  have hbind : s.listener.bindAddress = (overlay root).listener.bindAddress :=
    field_eq hroot hfits hs (by simp [layout]) follows_listener owns_listener rfl owns_bindAddress
      rfl fun _ h => h
  have hconnect : s.timeouts.connectSecs = (overlay root).timeouts.connectSecs :=
    field_eq hroot hfits hs (by simp [layout]) follows_timeouts owns_timeouts rfl owns_connectSecs
      rfl fun _ h => h
  have hrequest : s.timeouts.requestSecs = (overlay root).timeouts.requestSecs :=
    field_eq hroot hfits hs (by simp [layout]) follows_timeouts owns_timeouts rfl owns_requestSecs
      rfl fun _ h => h
  have henabled : s.handshake.enabled = (overlay root).handshake.enabled :=
    field_eq hroot hfits hs (by simp [layout]) follows_handshake owns_handshake rfl owns_enabled
      rfl fun _ h => h
  have halphabet : s.handshake.acceptAlphabet = (overlay root).handshake.acceptAlphabet :=
    field_eq hroot hfits hs (by simp [layout]) follows_handshake owns_handshake rfl
      owns_acceptAlphabet rfl fun _ h => h
  have hlevel : s.observability.logLevel = (overlay root).observability.logLevel :=
    field_eq hroot hfits hs (by simp [layout]) follows_observability owns_observability rfl
      owns_logLevel rfl fun _ h => h
  rw [hs]
  obtain ⟨⟨bind⟩, ⟨connect, request⟩, ⟨enabled, alphabet⟩, ⟨level⟩⟩ := s
  simp only at hbind hconnect hrequest henabled halphabet hlevel
  rw [hbind, hconnect, hrequest, henabled, halphabet, hlevel]

end Settings

end UpgradeBridge
