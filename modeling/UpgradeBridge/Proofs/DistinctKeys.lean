/-
No table of a document gives a key twice. The reader of values meets tables only
where it assembles an inline table itself, and whatever builds a table adds a key
only where it is missing; so the keys stay distinct from the empty table on.
-/
import UpgradeBridge.Proofs.Document

namespace UpgradeBridge.Toml

/-! ## What the reader of values makes -/

/-- Neither an array nor a table. -/
def Value.isScalar : Value → Bool
  | .array _ => false
  | .table _ _ => false
  | .tables _ => false
  | _ => true

theorem isScalar_integer? {n : Int} {v : Value} (h : integer? n = some v) : v.isScalar = true := by
  unfold integer? at h
  split at h <;> cases h
  rfl

theorem isScalar_float? {negative : Bool} {ds : List Nat} {exponent : Int} {v : Value}
    (h : float? negative ds exponent = some v) : v.isScalar = true := by
  unfold float? at h
  split at h <;> cases h
  rfl

theorem isScalar_decimalTail {negative : Bool} {whole : List Nat} {cs rest : List Char} {v : Value}
    (h : decimalTail negative whole cs = some (v, rest)) : v.isScalar = true := by
  -- every branch ends in a float or in an integer
  have hfloat : ∀ {ds exponent rest'},
      (do some (← float? negative ds exponent, rest')) = some (v, rest) → v.isScalar = true := by
    intro ds exponent rest' h
    obtain ⟨x, hx, h⟩ := Option.bind_eq_some_iff.mp h
    cases h
    exact isScalar_float? hx
  unfold decimalTail at h
  split at h
  · obtain ⟨⟨fraction, cs'⟩, -, h⟩ := Option.bind_eq_some_iff.mp h
    simp only at h
    split at h
    · obtain ⟨e, -, h⟩ := Option.bind_eq_some_iff.mp h
      exact hfloat h
    · obtain ⟨e, -, h⟩ := Option.bind_eq_some_iff.mp h
      exact hfloat h
    · exact hfloat h
  · obtain ⟨e, -, h⟩ := Option.bind_eq_some_iff.mp h
    exact hfloat h
  · obtain ⟨e, -, h⟩ := Option.bind_eq_some_iff.mp h
    exact hfloat h
  · obtain ⟨n, hn, h⟩ := Option.bind_eq_some_iff.mp h
    cases h
    exact isScalar_integer? hn

theorem isScalar_decimal {cs rest : List Char} {v : Value} (h : decimal cs = some (v, rest)) :
    v.isScalar = true := by
  unfold decimal at h
  split at h
  · cases h
    rfl
  · cases h
    rfl
  · obtain ⟨⟨whole, cs'⟩, -, htail⟩ := Option.bind_eq_some_iff.mp h
    exact isScalar_decimalTail htail

theorem isScalar_number {cs rest : List Char} {v : Value} (h : number cs = some (v, rest)) :
    v.isScalar = true := by
  have hbased : ∀ {base cs}, based base cs = some (v, rest) → v.isScalar = true := by
    intro base cs h
    obtain ⟨⟨ds, cs'⟩, -, h⟩ := Option.bind_eq_some_iff.mp h
    obtain ⟨n, hn, h⟩ := Option.bind_eq_some_iff.mp h
    cases h
    exact isScalar_integer? hn
  unfold number at h
  split at h
  · exact hbased h
  · exact hbased h
  · exact hbased h
  · split at h
    · obtain ⟨cs', -, h⟩ := Option.map_eq_some_iff.mp h
      cases h
      rfl
    · exact isScalar_decimal h
  · split at h
    · obtain ⟨cs', -, h⟩ := Option.bind_eq_some_iff.mp h
      obtain ⟨cs'', -, h⟩ := Option.bind_eq_some_iff.mp h
      cases h
      rfl
    · exact isScalar_decimal h
  · exact isScalar_decimal h

theorem isScalar_scalar {cs rest : List Char} {v : Value} (h : scalar cs = some (v, rest)) :
    v.isScalar = true := by
  unfold scalar at h
  split at h
  · cases h
    rfl
  · cases h
    rfl
  · split at h
    · obtain ⟨r, -, h⟩ := Option.map_eq_some_iff.mp h
      cases h
      rfl
    · obtain ⟨r, -, h⟩ := Option.map_eq_some_iff.mp h
      cases h
      rfl
    · exact isScalar_number h

section

variable {P : Value → Prop} {item : Reads Value}

theorem of_arrayItems (hitem : ∀ {cs v rest}, item cs = some (v, rest) → P v) :
    ∀ {fuel cs items rest}, arrayItems item fuel cs = some (items, rest) → ∀ v ∈ items, P v := by
  intro fuel
  induction fuel with
  | zero => exact fun h => nomatch h
  | succ fuel ih =>
    intro cs items rest h
    rw [arrayItems] at h
    split at h
    · cases h
      simp
    · obtain ⟨⟨x, cs'⟩, hx, h⟩ := Option.bind_eq_some_iff.mp h
      simp only at h
      split at h
      · cases h
        simpa using hitem hx
      · obtain ⟨⟨xs, rest'⟩, hxs, h⟩ := Option.bind_eq_some_iff.mp h
        cases h
        intro v hv
        rcases List.mem_cons.mp hv with rfl | hv
        · exact hitem hx
        · exact ih hxs v hv
      · cases h

theorem of_pair (hitem : ∀ {cs v rest}, item cs = some (v, rest) → P v) {cs rest : List Char}
    {p : Key × Value} (h : pair item cs = some (p, rest)) : P p.2 := by
  obtain ⟨⟨k, cs'⟩, -, h⟩ := Option.bind_eq_some_iff.mp h
  obtain ⟨cs'', -, h⟩ := Option.bind_eq_some_iff.mp h
  obtain ⟨⟨v, cs'''⟩, hv, h⟩ := Option.bind_eq_some_iff.mp h
  cases h
  exact hitem hv

theorem of_inlinePairs (hitem : ∀ {cs v rest}, item cs = some (v, rest) → P v) :
    ∀ {fuel cs pairs rest}, inlinePairs item fuel cs = some (pairs, rest) → ∀ p ∈ pairs, P p.2 := by
  intro fuel
  induction fuel with
  | zero => exact fun h => nomatch h
  | succ fuel ih =>
    intro cs pairs rest h
    rw [inlinePairs] at h
    obtain ⟨⟨q, cs'⟩, hq, h⟩ := Option.bind_eq_some_iff.mp h
    simp only at h
    split at h
    · cases h
      simpa using of_pair hitem hq
    · obtain ⟨⟨qs, rest'⟩, hqs, h⟩ := Option.bind_eq_some_iff.mp h
      cases h
      intro p hp
      rcases List.mem_cons.mp hp with rfl | hp
      · exact of_pair hitem hq
      · exact ih hqs p hp
    · cases h

/-- What holds of scalars, and of an array and an inline table if it holds of their parts, holds of
every value that is read. -/
theorem of_value (hscalar : ∀ v : Value, v.isScalar = true → P v)
    (harray : ∀ items : List Value, (∀ v ∈ items, P v) → P (.array items))
    (hinline : ∀ {pairs t}, (∀ p ∈ pairs, P p.2) → Table.assignAll ⟨.inline, []⟩ pairs = some t →
      P t.value) : ∀ {room cs v rest}, value room cs = some (v, rest) → P v := by
  intro room
  induction room with
  | zero => exact fun h => hscalar _ (isScalar_scalar h)
  | succ room ih =>
    intro cs v rest h
    unfold value at h
    split at h
    · obtain ⟨⟨items, rest'⟩, hitems, h⟩ := Option.map_eq_some_iff.mp h
      cases h
      exact harray items (of_arrayItems ih hitems)
    · unfold inlineTable at h
      split at h
      · cases h
        have hnone : ∀ p ∈ ([] : List (Key × Value)), P p.2 := by simp
        exact hinline hnone rfl
      · obtain ⟨⟨pairs, rest'⟩, hpairs, h⟩ := Option.bind_eq_some_iff.mp h
        obtain ⟨t, ht, h⟩ := Option.bind_eq_some_iff.mp h
        cases h
        exact hinline (of_inlinePairs ih hpairs) ht
    · exact hscalar _ (isScalar_scalar h)

/-- The property holds of the values of some pairs. -/
def AllPairs (P : Value → Prop) (pairs : List (Key × Value)) : Prop :=
  ∀ p ∈ pairs, P p.2

theorem of_line (hvalue : ∀ {room cs v rest}, value room cs = some (v, rest) → P v)
    {cs rest : List Char} {k : Key} {v : Value} (h : line cs = some (.pair k v, rest)) : P v := by
  unfold line at h
  split at h
  · obtain ⟨⟨k', cs₁⟩, -, h⟩ := Option.bind_eq_some_iff.mp h
    obtain ⟨cs₂, -, h⟩ := Option.bind_eq_some_iff.mp h
    obtain ⟨cs₃, -, h⟩ := Option.bind_eq_some_iff.mp h
    obtain ⟨cs₄, -, h⟩ := Option.bind_eq_some_iff.mp h
    cases h
  · obtain ⟨⟨k', cs₁⟩, -, h⟩ := Option.bind_eq_some_iff.mp h
    obtain ⟨cs₂, -, h⟩ := Option.bind_eq_some_iff.mp h
    obtain ⟨cs₃, -, h⟩ := Option.bind_eq_some_iff.mp h
    cases h
  · obtain ⟨⟨p, cs₁⟩, hpair, h⟩ := Option.bind_eq_some_iff.mp h
    obtain ⟨cs₂, -, h⟩ := Option.bind_eq_some_iff.mp h
    cases h
    exact of_pair hvalue hpair

theorem of_lines (hvalue : ∀ {room cs v rest}, value room cs = some (v, rest) → P v) :
    ∀ {fuel cs ls}, lines fuel cs = some ls → ∀ k v, .pair k v ∈ ls → P v := by
  intro fuel
  induction fuel with
  | zero => exact fun h => nomatch h
  | succ fuel ih =>
    intro cs ls h k v hmem
    rw [lines] at h
    split at h
    · cases h
      cases hmem
    · obtain ⟨⟨l, rest⟩, hl, h⟩ := Option.bind_eq_some_iff.mp h
      obtain ⟨ls', hls, h⟩ := Option.bind_eq_some_iff.mp h
      cases h
      rcases List.mem_cons.mp hmem with rfl | hmem
      · exact of_line hvalue hl
      · exact ih hls k v hmem

theorem of_sections : ∀ {ls : List Line}, (∀ k v, .pair k v ∈ ls → P v) →
    AllPairs P (sections ls).1 ∧ ∀ s ∈ (sections ls).2, AllPairs P s.pairs
  | [], _ => ⟨by simp [AllPairs, sections], by simp [sections]⟩
  | l :: ls, h => by
    obtain ⟨hpairs, hsections⟩ := of_sections fun k v hmem => h k v (List.mem_cons_of_mem _ hmem)
    cases l with
    | pair k v =>
      refine ⟨fun p hp => ?_, hsections⟩
      rcases List.mem_cons.mp hp with rfl | hp
      · exact h _ _ (List.mem_cons_self ..)
      · exact hpairs p hp
    | table k =>
      refine ⟨by simp [AllPairs, sections], fun s hs => ?_⟩
      rcases List.mem_cons.mp hs with rfl | hs
      · exact hpairs
      · exact hsections s hs
    | element k =>
      refine ⟨by simp [AllPairs, sections], fun s hs => ?_⟩
      rcases List.mem_cons.mp hs with rfl | hs
      · exact hpairs
      · exact hsections s hs

/-- What holds of every value that is read holds of all the values in a document. -/
theorem of_parts? (hvalue : ∀ {room cs v rest}, value room cs = some (v, rest) → P v)
    {text : String} {d : Parts} (h : Document.parts? text = some d) :
    AllPairs P d.pairs ∧ ∀ s ∈ d.sections, AllPairs P s.pairs := by
  obtain ⟨ls, hls, h⟩ := Option.bind_eq_some_iff.mp h
  cases h
  exact of_sections (of_lines hvalue hls)

end

/-- No value that is read holds an array of tables. -/
theorem fact?_ne_tables_of_value {room : Nat} {cs rest : List Char} {v : Value}
    (h : value room cs = some (v, rest)) : ∀ p, v.fact? p ≠ some .tables := by
  refine of_value (P := fun v => ∀ p, v.fact? p ≠ some .tables) (fun v hv p hp => ?_)
    (fun items _ p hp => ?_) (fun {pairs t} hpairs ht p hp => ?_) h
  · cases p with
    | nil => cases v <;> cases hv <;> cases hp
    | cons key p => cases v <;> cases hv <;> cases hp
  · cases p <;> cases hp
  · rcases (Table.fact?_assignAll ht hpairs).mp hp with ⟨-, hf⟩ | ⟨pair, hpair, htells⟩
    · cases hf
    · rcases Key.tells_iff.mp htells with ⟨-, hf⟩ | ⟨r, -, hr⟩
      · cases hf
      · exact hpairs pair hpair r hr

theorem Document.ne_tables_of_parts? {text : String} {d : Parts} (h : parts? text = some d) :
    ∀ s ∈ d.sections, ∀ q ∈ s.pairs, ∀ p, q.2.fact? p ≠ some .tables :=
  (of_parts? fact?_ne_tables_of_value h).2

/-! ## Distinct keys -/

/-- The tables in a value have distinct keys. Arrays of tables, whose tables are no values, are left
out. -/
inductive Value.Distinct : Value → Prop
  | scalar {v} : v.isScalar = true → Distinct v
  | array {items} : (∀ v ∈ items, Distinct v) → Distinct (.array items)
  | table {origin entries} : (entries.map Prod.fst).Nodup → (∀ e ∈ entries, Distinct e.2) →
      Distinct (.table origin entries)
  | tables {elements} : Distinct (.tables elements)

theorem Entries.mem_of_get? {entries : Entries} {k : String} {v : Value}
    (h : entries.get? k = some v) : (k, v) ∈ entries := by
  obtain ⟨⟨k', v'⟩, hfind, hv⟩ := Option.map_eq_some_iff.mp h
  have hk : k' = k := by simpa using List.find?_some hfind
  cases hk
  cases hv
  exact List.mem_of_find?_eq_some hfind

theorem Entries.get?_eq_none_iff {entries : Entries} {k : String} :
    entries.get? k = none ↔ k ∉ entries.map Prod.fst := by
  simp only [get?, Option.map_eq_none_iff, List.find?_eq_none, beq_iff_eq, List.mem_map, not_exists,
    not_and]

theorem Entries.get?_of_mem {entries : Entries} {k : String} {v : Value}
    (hnodup : (entries.map Prod.fst).Nodup) (hmem : (k, v) ∈ entries) : entries.get? k = some v := by
  induction entries with
  | nil => cases hmem
  | cons e rest ih =>
    obtain ⟨hfresh, hrest⟩ := List.nodup_cons.mp hnodup
    rw [get?_cons]
    rcases List.mem_cons.mp hmem with rfl | hmem
    · rw [if_pos rfl]
    · have hne : e.1 ≠ k := fun hkey => hfresh (hkey ▸ List.mem_map_of_mem hmem)
      rw [if_neg hne]
      exact ih hrest hmem

theorem Entries.get?_perm {es es' : Entries} (hperm : es.Perm es') (hnodup : (es.map Prod.fst).Nodup)
    (key : String) : es.get? key = es'.get? key := by
  have hnodup' : (es'.map Prod.fst).Nodup := (hperm.map _).nodup_iff.mp hnodup
  cases h : es.get? key with
  | some v => exact (get?_of_mem hnodup' (hperm.mem_iff.mp (mem_of_get? h))).symm
  | none =>
    rw [get?_eq_none_iff, (hperm.map Prod.fst).mem_iff] at h
    exact (get?_eq_none_iff.mpr h).symm

/-- The keys of a table are distinct, and those of the tables in it. -/
def Table.Distinct (t : Table) : Prop :=
  t.value.Distinct

namespace Table

variable {t t' : Table} {key : String} {v : Value}

theorem distinct_iff : t.Distinct ↔
    (t.entries.map Prod.fst).Nodup ∧ ∀ e ∈ t.entries, e.2.Distinct := by
  constructor
  · intro h
    cases h with
    | scalar hscalar => cases hscalar
    | table hnodup hentries => exact ⟨hnodup, hentries⟩
  · exact fun ⟨hnodup, hentries⟩ => .table hnodup hentries

theorem distinct_empty (origin : Origin) : Distinct ⟨origin, []⟩ :=
  distinct_iff.mpr ⟨List.nodup_nil, by simp⟩

theorem Distinct.push (h : t.Distinct) (hnone : t.entries.get? key = none) (hv : v.Distinct) :
    (t.push key v).Distinct := by
  obtain ⟨hnodup, hentries⟩ := distinct_iff.mp h
  have hnew := Entries.get?_eq_none_iff.mp hnone
  refine distinct_iff.mpr ⟨?_, fun e he => ?_⟩
  · rw [Table.push, List.map_append, List.nodup_append]
    refine ⟨hnodup, by simp, fun k hk k' hk' => ?_⟩
    rw [List.mem_singleton.mp hk']
    rintro rfl
    exact hnew hk
  · rcases List.mem_append.mp he with he | he
    · exact hentries e he
    · rw [List.mem_singleton.mp he]
      exact hv

theorem Distinct.replace (h : t.Distinct) (hv : v.Distinct) :
    Distinct { t with entries := t.entries.replace key v } := by
  obtain ⟨hnodup, hentries⟩ := distinct_iff.mp h
  have hkeys : (t.entries.replace key v).map Prod.fst = t.entries.map Prod.fst := by
    rw [Entries.replace, List.map_map]
    refine List.map_congr_left fun e _ => ?_
    by_cases hkey : e.1 = key <;> simp [hkey]
  refine distinct_iff.mpr ⟨?_, fun e he => ?_⟩
  · rw [hkeys]
    exact hnodup
  · obtain ⟨e', he', rfl⟩ := List.mem_map.mp he
    split
    · exact hv
    · exact hentries e' he'

theorem Distinct.erase (h : t.Distinct) (key : String) :
    Distinct { t with entries := t.entries.erase key } := by
  obtain ⟨hnodup, hentries⟩ := distinct_iff.mp h
  have hsub : List.Sublist (t.entries.erase key) t.entries := List.filter_sublist
  exact distinct_iff.mpr ⟨hnodup.sublist (hsub.map _), fun e he => hentries e (hsub.mem he)⟩

theorem Distinct.get? (h : t.Distinct) (hget : t.entries.get? key = some v) : v.Distinct :=
  (distinct_iff.mp h).2 _ (Entries.mem_of_get? hget)

theorem Distinct.within {dotted : Bool} {work : Table → Option Table}
    (hwork : ∀ {child child'}, child.Distinct → work child = some child' → child'.Distinct) :
    ∀ {path : List String} {t t' : Table}, t.Distinct → within dotted work path t = some t' →
      t'.Distinct
  | [], t, t', ht, h => hwork ht h
  | key :: path, t, t', ht, h => by
    rw [Table.within] at h
    split at h
    · next hnone =>
      obtain ⟨child, hchild, h⟩ := Option.bind_eq_some_iff.mp h
      cases h
      exact ht.push hnone (Distinct.within hwork (distinct_empty _) hchild)
    · next origin entries hget =>
      split at h
      · obtain ⟨child, hchild, h⟩ := Option.bind_eq_some_iff.mp h
        cases h
        have hentries : Distinct ⟨origin, entries⟩ := ht.get? hget
        exact ht.replace (Distinct.within hwork hentries hchild)
      · cases h
    · next elements hget =>
      split at h
      · obtain ⟨child, hchild, h⟩ := Option.bind_eq_some_iff.mp h
        cases h
        exact ht.replace .tables
      · cases h
    · cases h

theorem Distinct.assign {k : Key} (h : t.Distinct) (hv : v.Distinct)
    (hassign : t.assign k v = some t') : t'.Distinct := by
  refine Distinct.within (fun {child child'} hchild hwork => ?_) h hassign
  split at hwork
  · rw [define] at hwork
    split at hwork
    · next hnone =>
      cases hwork
      exact hchild.push hnone hv
    · cases hwork
  · cases hwork

theorem Distinct.assignAll {pairs : List (Key × Value)} (hpairs : AllPairs Value.Distinct pairs) :
    ∀ {t t' : Table}, t.Distinct → t.assignAll pairs = some t' → t'.Distinct := by
  induction pairs with
  | nil =>
    intro t t' ht h
    cases h
    exact ht
  | cons p pairs ih =>
    intro t t' ht h
    obtain ⟨mid, hmid, h⟩ := Option.bind_eq_some_iff.mp h
    have hp := hpairs p (List.mem_cons_self ..)
    exact ih (fun q hq => hpairs q (List.mem_cons_of_mem _ hq)) (ht.assign hp hmid) h

end Table

theorem distinct_value {room : Nat} {cs rest : List Char} {v : Value}
    (h : value room cs = some (v, rest)) : v.Distinct :=
  of_value (fun _ => .scalar) (fun _ => .array)
    (fun hpairs => Table.Distinct.assignAll hpairs (Table.distinct_empty _)) h

theorem Section.distinct_place {s : Section} (hpairs : AllPairs Value.Distinct s.pairs)
    {parent parent' : Table} (h : parent.Distinct) (hplace : s.place parent = some parent') :
    parent'.Distinct := by
  have hopened : ∀ {t}, Table.assignAll ⟨.header, []⟩ s.pairs = some t → t.Distinct :=
    Table.Distinct.assignAll hpairs (Table.distinct_empty _)
  rw [place] at hplace
  split at hplace
  · next hnone _ =>
    obtain ⟨t, ht, hplace⟩ := Option.bind_eq_some_iff.mp hplace
    cases hplace
    exact h.push hnone (hopened ht)
  · next entries hget _ =>
    obtain ⟨t, ht, hplace⟩ := Option.bind_eq_some_iff.mp hplace
    cases hplace
    have hentries : Table.Distinct ⟨.implied, entries⟩ := h.get? hget
    have hheader : Table.Distinct ⟨.header, entries⟩ := by
      rw [Table.distinct_iff] at hentries ⊢
      exact hentries
    exact (h.erase _).push (Entries.get?_erase _) (hheader.assignAll hpairs ht)
  · next hnone _ =>
    obtain ⟨t, ht, hplace⟩ := Option.bind_eq_some_iff.mp hplace
    cases hplace
    exact h.push hnone .tables
  · obtain ⟨t, ht, hplace⟩ := Option.bind_eq_some_iff.mp hplace
    cases hplace
    exact h.replace .tables
  · cases hplace

theorem Section.distinct_addAll {ss : List Section} (hpairs : ∀ s ∈ ss, AllPairs Value.Distinct s.pairs) :
    ∀ {root root' : Table}, root.Distinct → ss.foldlM add root = some root' → root'.Distinct := by
  induction ss with
  | nil =>
    intro root root' hroot h
    cases h
    exact hroot
  | cons s ss ih =>
    intro root root' hroot h
    obtain ⟨mid, hmid, h⟩ := Option.bind_eq_some_iff.mp h
    have hs := hpairs s (List.mem_cons_self ..)
    have hdistinct : mid.Distinct := Table.Distinct.within (distinct_place hs) hroot hmid
    exact ih (fun s' hs' => hpairs s' (List.mem_cons_of_mem _ hs')) hdistinct h

/-- The keys of the table that a document builds are distinct, and so are those of the tables in it. -/
theorem Document.distinct_root {text : String} {d : Parts} {root : Table}
    (hparts : parts? text = some d) (h : d.assemble? = some root) : root.Distinct := by
  obtain ⟨hpairs, hsections⟩ := of_parts? distinct_value hparts
  obtain ⟨mid, hmid, h⟩ := Option.bind_eq_some_iff.mp h
  have hdistinct : mid.Distinct := Table.Distinct.assignAll hpairs (Table.distinct_empty _) hmid
  exact Section.distinct_addAll hsections hdistinct h

end UpgradeBridge.Toml
