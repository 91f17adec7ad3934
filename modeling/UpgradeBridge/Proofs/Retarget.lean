/-
What a request becomes when it is retargeted: the CONNECT request for the host
that it names, or, if the host is no authority, what it was before.

`Retargeted` says which parts of the request change and to what. The request is
rewritten in place, one change after the other; that nothing is left half done is
`run_rewrite`, which tells the outcome from `retarget`.
-/
import UpgradeBridge.Proofs.Detection
import UpgradeBridge.Proofs.Routing

namespace UpgradeBridge

open Header

namespace Upgrade

/-- A request and what it becomes for an upgrade: a CONNECT request to the host, which is told its
host once; what only the handshake needs is gone, however it was spelled; all else is kept. -/
structure Retargeted (u : Upgrade) (r r' : Request) : Prop where
  method : r'.method.name = "CONNECT"
  authority : r'.uri.authority? = some ⟨u.hostText⟩
  scheme : r'.uri.scheme? = none
  host : r'.headers.values Name.host = [u.host]
  gone : ∀ spelling name, Name.ofString? spelling = some name →
    Ascii.lower spelling ∈ ["upgrade", "connection", "sec-websocket-key", "x-connect-host"] →
      r'.headers.values name = []
  others : ∀ n, n ∉ Name.host :: decisive → r'.headers.values n = r.headers.values n
  body : r'.body = r.body

/-- The rewriting is done as a whole or not at all. -/
theorem run_rewrite (u : Upgrade) (r : Request) :
    u.rewrite.run.run r = match u.retarget r with
      | .error e => (.error e, r)
      | .ok r' => (.ok (), r') := by
  rw [rewrite, retarget]
  cases u.target? with
  | none => rfl
  | some uri => rfl

/-- The CONNECT request for the host of an upgrade. -/
def forwarded (u : Upgrade) (r : Request) : Request where
  method := Method.connect
  uri := .authority ⟨u.hostText⟩
  headers := u.edits.foldl Headers.Edit.apply r.headers
  body := r.body

theorem retarget_of_routable {u : Upgrade} (h : Routable u.hostText) (r : Request) :
    u.retarget r = .ok (u.forwarded r) := by
  rw [retarget, target?_of_routable h]
  rfl

theorem retarget_of_not_routable {u : Upgrade} (h : ¬ Routable u.hostText) (r : Request) :
    u.retarget r = .error (.invalidHost u.hostText) := by
  rw [retarget, target?_of_not_routable h]

/-! ## The header fields of the CONNECT request -/

theorem values_edits (u : Upgrade) (h : Headers) (n : Name) :
    (u.edits.foldl Headers.Edit.apply h).values n =
      if n ∈ decisive then [] else if n = Name.host then [u.host] else h.values n := by
  simp only [edits, List.foldl_cons, List.foldl_nil, Headers.Edit.apply, Headers.values_remove,
    Headers.values_insert]
  grind [decisive]

/-- The host comes last. -/
theorem foldl_edits (u : Upgrade) (h : Headers) :
    u.edits.foldl Headers.Edit.apply h =
      (decisive.foldl Headers.remove (h.remove Name.host)).append Name.host u.host := by
  have hne : ∀ n ∈ decisive, Name.host ≠ n := by decide
  simp only [decisive, List.forall_mem_cons] at hne
  obtain ⟨hupgrade, hconnection, hkey, hhost, -⟩ := hne
  simp only [edits, decisive, List.foldl_cons, List.foldl_nil, Headers.Edit.apply, Headers.insert]
  rw [Headers.remove_append_of_ne _ hupgrade, Headers.remove_append_of_ne _ hconnection,
    Headers.remove_append_of_ne _ hkey, Headers.remove_append_of_ne _ hhost]

theorem edits_idem (u : Upgrade) (h : Headers) :
    u.edits.foldl Headers.Edit.apply (u.edits.foldl Headers.Edit.apply h) =
      u.edits.foldl Headers.Edit.apply h := by
  have hinsert : (u.edits.foldl Headers.Edit.apply h).insert Name.host u.host =
      u.edits.foldl Headers.Edit.apply h := by
    have hnone : (decisive.foldl Headers.remove (h.remove Name.host)).values Name.host = [] := by
      simp [decisive, Headers.values_remove]
    rw [foldl_edits, Headers.insert_append_self, Headers.insert, Headers.remove_eq_self hnone]
  have hremove : ∀ n ∈ decisive, (u.edits.foldl Headers.Edit.apply h).remove n =
      u.edits.foldl Headers.Edit.apply h := by
    intro n hn
    exact Headers.remove_eq_self (by rw [values_edits, if_pos hn])
  generalize u.edits.foldl Headers.Edit.apply h = edited at *
  simp only [decisive, List.forall_mem_cons] at hremove
  obtain ⟨hupgrade, hconnection, hkey, hhost, -⟩ := hremove
  simp only [edits, List.foldl_cons, List.foldl_nil, Headers.Edit.apply, hinsert, hupgrade,
    hconnection, hkey, hhost]

theorem mem_decisive_of_spelling {spelling : String} {name : Name}
    (hname : Name.ofString? spelling = some name)
    (h : Ascii.lower spelling ∈ ["upgrade", "connection", "sec-websocket-key", "x-connect-host"]) :
    name ∈ decisive := by
  unfold Name.ofString? at hname
  split at hname
  · cases hname
    have hmap : decisive = List.map Name.mk
      ["upgrade", "connection", "sec-websocket-key", "x-connect-host"] := rfl
    rw [hmap]
    exact List.mem_map_of_mem h
  · cases hname

theorem retargeted_forwarded (u : Upgrade) (r : Request) : Retargeted u r (u.forwarded r) := by
  refine ⟨rfl, rfl, rfl, ?_, ?_, ?_, rfl⟩
  · rw [forwarded, values_edits, if_neg (by decide), if_pos rfl]
  · intro spelling name hname hspelling
    rw [forwarded, values_edits, if_pos (mem_decisive_of_spelling hname hspelling)]
  · intro n hn
    rw [List.mem_cons, not_or] at hn
    rw [forwarded, values_edits, if_neg hn.2, if_neg hn.1]

/-- What has become a CONNECT request for the host stays as it is. -/
theorem forwarded_forwarded (u : Upgrade) (r : Request) :
    u.forwarded (u.forwarded r) = u.forwarded r := by
  simp only [forwarded, edits_idem]

/-! ## Hosts that are no texts -/

theorem utf8_hostText {u : Upgrade} (h : ∀ b ∈ u.host.bytes, (0x20 ≤ b ∧ b ≤ 0x7e) ∨ b = 0x09) :
    utf8 u.hostText = u.host.bytes := by
  obtain ⟨text, htext⟩ := Ascii.exists_visible?_iff.mpr h
  rw [hostText, Value.text?, htext]
  exact Ascii.utf8_of_visible? htext

theorem hostText_eq_empty {u : Upgrade}
    (h : ¬ ∀ b ∈ u.host.bytes, (0x20 ≤ b ∧ b ≤ 0x7e) ∨ b = 0x09) : u.hostText = "" := by
  have hnone : Ascii.visible? u.host.bytes = none :=
    Option.eq_none_iff_forall_ne_some.mpr fun text htext => h (Ascii.exists_visible?_iff.mp ⟨text, htext⟩)
  rw [hostText, Value.text?, hnone]
  rfl

theorem not_routable_empty : ¬ Routable "" := by
  rintro ⟨uri, hread, -⟩
  cases hread

/-- **A request is retargeted as a whole or not at all, exactly, and once and for all.** Unless the
text of the host is an authority the rewriting fails for this text and leaves the request as it was;
otherwise it makes it the CONNECT request for the host, which asks for no WebSocket, and which another
rewriting leaves as it is. The text has the octets of the host, or is empty and refused if these are
not visible. -/
theorem rewrites_whole (u : Upgrade) (r : Request) :
    (¬ Routable u.hostText → u.rewrite.run.run r = (.error (.invalidHost u.hostText), r)) ∧
    (Routable u.hostText → ∃ r', u.rewrite.run.run r = (.ok (), r') ∧ Retargeted u r r' ∧
      u.rewrite.run.run r' = (.ok (), r') ∧ detect r' = none) ∧
    ((∀ b ∈ u.host.bytes, (0x20 ≤ b ∧ b ≤ 0x7e) ∨ b = 0x09) → utf8 u.hostText = u.host.bytes) ∧
    ((¬ ∀ b ∈ u.host.bytes, (0x20 ≤ b ∧ b ≤ 0x7e) ∨ b = 0x09) →
      u.hostText = "" ∧ ¬ Routable u.hostText) ∧
    u.rewrite.run.run r = match u.retarget r with
      | .error e => (.error e, r)
      | .ok r' => (.ok (), r') := by
  refine ⟨fun h => ?_, fun h => ?_, utf8_hostText, fun h => ?_, u.run_rewrite r⟩
  · rw [run_rewrite, retarget_of_not_routable h]
  · refine ⟨u.forwarded r, ?_, u.retargeted_forwarded r, ?_, detect_of_connect rfl⟩
    · rw [run_rewrite, retarget_of_routable h]
    · rw [run_rewrite, retarget_of_routable h, forwarded_forwarded]
  · have hempty := hostText_eq_empty h
    exact ⟨hempty, hempty ▸ not_routable_empty⟩

/-- A request with two hosts and two upgrades. -/
def crowded : Request where
  headers := ⟨[(Name.host, ⟨utf8 "edge.example.com", by decide⟩), (Name.upgrade, ⟨utf8 "h2c", by decide⟩),
    (Name.host, ⟨utf8 "edge.example.org", by decide⟩), (Name.upgrade, Value.websocket),
    (⟨"x-trace"⟩, ⟨utf8 "keep", by decide⟩)]⟩

/-- It is rewritten for one host and left alone for another one. -/
theorem rewrites_crowded :
    let named : Upgrade := ⟨"", ⟨utf8 "backend.internal:9000", by decide⟩⟩
    let misnamed : Upgrade := ⟨"", ⟨utf8 "not a host", by decide⟩⟩
    Routable named.hostText ∧ (∃ r', named.rewrite.run.run crowded = (.ok (), r') ∧
      r'.headers.values Name.host = [named.host] ∧ r'.headers.values Name.upgrade = [] ∧
      r'.headers.values ⟨"x-trace"⟩ = crowded.headers.values ⟨"x-trace"⟩) ∧
    ¬ Routable misnamed.hostText ∧ misnamed.rewrite.run.run crowded =
      (.error (.invalidHost misnamed.hostText), crowded) := by
  intro named misnamed
  have hnamed : Routable named.hostText :=
    ⟨.authority ⟨"backend.internal:9000"⟩, by decide, rfl, by simp [Uri.authority?]⟩
  have hmisnamed : ¬ Routable misnamed.hostText := by
    intro h
    have hnone : Uri.read? misnamed.hostText = none := by decide
    cases h.read?.symm.trans hnone
  obtain ⟨r', hrun, hr', -⟩ := (rewrites_whole named crowded).2.1 hnamed
  exact ⟨hnamed, ⟨r', hrun, hr'.host, hr'.gone "Upgrade" _ (by decide) (by decide),
    hr'.others _ (by decide)⟩, hmisnamed, (rewrites_whole misnamed crowded).1 hmisnamed⟩

end Upgrade

end UpgradeBridge
