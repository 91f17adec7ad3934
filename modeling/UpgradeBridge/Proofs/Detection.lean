/-
Which requests ask for a WebSocket: those with the method GET whose newest values
of four header names are in order. Each of these values has a rule of its own, and
nothing else in a request has a say: not its target, not its other header fields,
not the values that newer ones of the same name have replaced.

`Asks` states the rules octet by octet, apart from the checks that the detection
makes one after the other.
-/
import UpgradeBridge.Proofs.Ascii
import UpgradeBridge.Proofs.Headers
import UpgradeBridge.Upgrade

namespace UpgradeBridge.Upgrade

open Header Ascii

/-- The names whose newest values decide. -/
def decisive : List Name :=
  [Name.upgrade, Name.connection, Name.secWebSocketKey, Name.xConnectHost]

/-- A request asks for a WebSocket: its method is GET, and the newest values of the decisive names
are `websocket` as it stands, `upgrade` in any case, and a key and a host that are readable. -/
structure Asks (r : Request) : Prop where
  method : r.method.name = "GET"
  upgrade : ∃ v, r.headers.last? Name.upgrade = some v ∧ v.bytes = utf8 "websocket"
  connection : ∃ v, r.headers.last? Name.connection = some v ∧
    List.Forall₂ SameLetter v.bytes (utf8 "upgrade")
  key : ∃ v, r.headers.last? Name.secWebSocketKey = some v ∧ Readable v.bytes
  host : ∃ v, r.headers.last? Name.xConnectHost = some v ∧ Readable v.bytes

/-! ## The checks -/

theorem lastPasses_iff {h : Headers} {name : Name} {test : Bytes → Bool} :
    lastPasses h name test = true ↔ ∃ v, h.last? name = some v ∧ test v.bytes = true := by
  unfold lastPasses
  split <;> simp_all

theorem lastText?_eq_some_iff {h : Headers} {name : Name} {text : String} :
    lastText? h name = some text ↔
      ∃ v, h.last? name = some v ∧ Readable v.bytes ∧ utf8 text = v.bytes := by
  unfold lastText?
  cases hlast : h.last? name with
  | none => simp
  | some v =>
    simp only [Option.bind_some, Option.some.injEq, exists_eq_left', ← visible?_eq_some_iff]
    rw [Value.text?]
    cases hvisible : visible? v.bytes with
    | none => simp
    | some text' =>
      by_cases hempty : text' = ""
      · subst hempty
        simp +contextual
      · have hne : text'.isEmpty = false := by simpa [Bool.eq_false_iff] using hempty
        simp only [hne, Bool.false_eq_true, if_false, Option.some.injEq]
        refine ⟨?_, fun h => h.1⟩
        rintro rfl
        exact ⟨rfl, hempty⟩

theorem exists_lastText?_iff {h : Headers} {name : Name} :
    (∃ text, lastText? h name = some text) ↔ ∃ v, h.last? name = some v ∧ Readable v.bytes := by
  constructor
  · rintro ⟨text, htext⟩
    obtain ⟨v, hlast, hreadable, -⟩ := lastText?_eq_some_iff.mp htext
    exact ⟨v, hlast, hreadable⟩
  · rintro ⟨v, hlast, hreadable⟩
    obtain ⟨text, hvisible⟩ := exists_visible?_iff.mpr hreadable.2
    exact ⟨text, lastText?_eq_some_iff.mpr ⟨v, hlast, hreadable, utf8_of_visible? hvisible⟩⟩

/-- What the detection gives is the text of the newest key and the newest host as it is. -/
theorem detect_eq_some_iff {r : Request} {u : Upgrade} :
    detect r = some u ↔ Asks r ∧
      (∃ v, r.headers.last? Name.secWebSocketKey = some v ∧ utf8 u.key = v.bytes) ∧
      r.headers.last? Name.xConnectHost = some u.host := by
  constructor
  · intro h
    unfold detect at h
    split at h
    · next hgate =>
      obtain ⟨hmethod, hupgrade, hconnection⟩ := hgate
      split at h
      · next key text host hkey htext hhost =>
        cases h
        obtain ⟨k, hk, hkreadable, hkey⟩ := lastText?_eq_some_iff.mp hkey
        refine ⟨⟨?_, ?_, ?_, ⟨k, hk, hkreadable⟩, exists_lastText?_iff.mp ⟨text, htext⟩⟩,
          ⟨k, hk, hkey⟩, hhost⟩
        · rw [hmethod]
          rfl
        · simpa using lastPasses_iff.mp hupgrade
        · simpa only [sameIgnoringCase_iff] using lastPasses_iff.mp hconnection
      · cases h
    · cases h
  · rintro ⟨hasks, ⟨k, hk, hkey⟩, hhost⟩
    have hmethod : r.method = Method.get := congrArg Method.mk hasks.method
    have hupgrade : lastPasses r.headers Name.upgrade (· == utf8 "websocket") = true :=
      lastPasses_iff.mpr (by simpa using hasks.upgrade)
    have hconnection :
        lastPasses r.headers Name.connection (sameIgnoringCase · (utf8 "upgrade")) = true :=
      lastPasses_iff.mpr (by simpa only [sameIgnoringCase_iff] using hasks.connection)
    obtain ⟨k', hk', hreadable⟩ := hasks.key
    obtain rfl : k' = k := Option.some.inj (hk'.symm.trans hk)
    have hkeytext := lastText?_eq_some_iff.mpr ⟨k', hk, hreadable, hkey⟩
    obtain ⟨text, htext⟩ := exists_lastText?_iff.mpr hasks.host
    rw [detect, if_pos ⟨hmethod, hupgrade, hconnection⟩, hkeytext, htext, hhost]

theorem exists_detect_iff {r : Request} : (∃ u, detect r = some u) ↔ Asks r := by
  constructor
  · rintro ⟨u, hdetect⟩
    exact (detect_eq_some_iff.mp hdetect).1
  · intro hasks
    obtain ⟨key, htext⟩ := exists_lastText?_iff.mpr hasks.key
    obtain ⟨k, hk, -, hkey⟩ := lastText?_eq_some_iff.mp htext
    obtain ⟨host, hhost, -⟩ := hasks.host
    exact ⟨⟨key, host⟩, detect_eq_some_iff.mpr ⟨hasks, ⟨k, hk, hkey⟩, hhost⟩⟩

theorem lastPasses_congr {h h' : Headers} {name : Name} (hlast : h'.last? name = h.last? name) :
    lastPasses h' name = lastPasses h name := by
  funext test
  rw [lastPasses, lastPasses, hlast]

theorem lastText?_congr {h h' : Headers} {name : Name} (hlast : h'.last? name = h.last? name) :
    lastText? h' name = lastText? h name := by
  rw [lastText?, lastText?, hlast]

/-- Nothing but the method and the newest values of the decisive names counts. -/
theorem detect_congr {r r' : Request} (hmethod : r'.method = r.method)
    (hlast : ∀ n ∈ decisive, r'.headers.last? n = r.headers.last? n) : detect r' = detect r := by
  have hupgrade := hlast Name.upgrade (by simp [decisive])
  have hconnection := hlast Name.connection (by simp [decisive])
  have hkey := hlast Name.secWebSocketKey (by simp [decisive])
  have hhost := hlast Name.xConnectHost (by simp [decisive])
  rw [detect, detect, hmethod, lastPasses_congr hupgrade, lastPasses_congr hconnection,
    lastText?_congr hkey, lastText?_congr hhost, hhost]

/-- What is asked of a decisive value includes that it is readable. -/
theorem Asks.readable {r : Request} (h : Asks r) {n : Name} (hn : n ∈ decisive) :
    ∃ v, r.headers.last? n = some v ∧ Readable v.bytes := by
  simp only [decisive, List.mem_cons, List.not_mem_nil, or_false] at hn
  rcases hn with rfl | rfl | rfl | rfl
  · obtain ⟨v, hlast, hbytes⟩ := h.upgrade
    have hvisible : visible? (utf8 "websocket") = some "websocket" := by decide
    have hreadable := (visible?_eq_some_iff.mp ⟨hvisible, by decide⟩).1
    exact ⟨v, hlast, hbytes ▸ hreadable⟩
  · obtain ⟨v, hlast, hletters⟩ := h.connection
    exact ⟨v, hlast, readable_of_letters hletters (by decide) (by decide)⟩
  · exact h.key
  · exact h.host

/-- **A request asks for a WebSocket by its method and the newest values of four names alone.** It
does exactly if it `Asks`, and it is then given the text of its newest key and its newest host as it
is. Requests that agree on the method and these values are answered alike: the older values of a name
neither rescue a newest one that is empty or not visible nor spoil one that is in order, and the
order of fields of different names does not count. -/
theorem detect_decides (r : Request) :
    ((∃ u, detect r = some u) ↔ Asks r) ∧
    (∀ u, detect r = some u →
      (∃ v, r.headers.last? Name.secWebSocketKey = some v ∧ utf8 u.key = v.bytes) ∧
        r.headers.last? Name.xConnectHost = some u.host) ∧
    (∀ r' : Request, r'.method = r.method →
      (∀ n ∈ decisive, r'.headers.last? n = r.headers.last? n) → detect r' = detect r) ∧
    (∀ n ∈ decisive, ∀ v, ¬ Readable v.bytes →
      detect { r with headers := r.headers.append n v } = none) ∧
    (∀ n v, detect { r with headers := r.headers.append n v } =
      detect { r with headers := r.headers.insert n v }) ∧
    (∀ m n v w front back, m ≠ n →
      detect { r with headers := ⟨front ++ (m, v) :: (n, w) :: back⟩ } =
        detect { r with headers := ⟨front ++ (n, w) :: (m, v) :: back⟩ }) := by
  refine ⟨exists_detect_iff, fun u h => (detect_eq_some_iff.mp h).2, fun r' => detect_congr, ?_, ?_, ?_⟩
  · intro n hn v hunreadable
    rw [Option.eq_none_iff_forall_ne_some]
    intro u hdetect
    obtain ⟨v', hlast, hreadable⟩ := (detect_eq_some_iff.mp hdetect).1.readable hn
    rw [Headers.last?_append, if_pos rfl] at hlast
    cases hlast
    exact hunreadable hreadable
  · intro n v
    refine detect_congr rfl fun m _ => ?_
    rw [Headers.last?_append, Headers.last?_insert]
  · intro m n v w front back hne
    refine detect_congr rfl fun k _ => ?_
    exact congrArg List.getLast? (Headers.values_swap hne v w front back k)

/-- A request for a WebSocket. -/
def settled : Request where
  headers := ⟨[(Name.upgrade, Value.websocket), (Name.connection, Value.upgrade),
    (Name.secWebSocketKey, ⟨utf8 "c29tZSBvdGhlciBub25jZQ==", by decide⟩),
    (Name.xConnectHost, ⟨utf8 "tunnel.internal:9000", by decide⟩)]⟩

/-- The same request for another target, with older values of which some are no texts. -/
def corrected : Request where
  uri := .path ⟨"/chat", none⟩
  headers := ⟨[(Name.secWebSocketKey, ⟨[0xff], by decide⟩), (Name.xConnectHost, ⟨[], by decide⟩),
    (Name.xConnectHost, ⟨utf8 "tunnel.internal:9000", by decide⟩),
    (Name.connection, ⟨utf8 "close", by decide⟩), (Name.upgrade, Value.websocket),
    (Name.secWebSocketKey, ⟨utf8 "c29tZSBvdGhlciBub25jZQ==", by decide⟩),
    (Name.connection, Value.upgrade)]⟩

/-- What was corrected does not count, and what is spoiled is not rescued. -/
theorem detect_corrected :
    (corrected.method = settled.method ∧
      (∀ n ∈ decisive, corrected.headers.last? n = settled.headers.last? n) ∧
      detect corrected = detect settled) ∧
    Name.xConnectHost ∈ decisive ∧ ¬ Readable [] ∧
      detect { settled with headers := settled.headers.append Name.xConnectHost ⟨[], rfl⟩ } = none := by
  obtain ⟨-, -, hagree, hspoiled, -⟩ := detect_decides settled
  have hempty : ¬ Readable [] := fun h => h.1 rfl
  exact ⟨⟨rfl, by decide, hagree corrected rfl (by decide)⟩, by decide, hempty,
    hspoiled Name.xConnectHost (by decide) ⟨[], rfl⟩ hempty⟩

end UpgradeBridge.Upgrade
