/-
Documents that say the same in other words. Lines may change places, a section may
be written with a header, inline, with dotted keys or as an array, and what is
unknown may come and go: the settings stay the same.

Settings are read from few facts only. Every step of a rewording keeps these facts
in what the lines tell, and `Parts.fact_iff_tells` carries them over to the tables
that the documents build. Only for a document that builds a table does this mean
anything, and only from one whose values fit.
-/
import Mathlib
import UpgradeBridge.Proofs.Overlay
import UpgradeBridge.Settings.Loading

namespace UpgradeBridge

open Toml

/-! ## Steps of a rewording -/

/-- The key after another one and a point. -/
def Toml.Key.under (name : String) (k : Key) : Key :=
  ⟨name :: k.path, k.name⟩

namespace Settings

/-- A path that leads neither to a known section nor into a known field. -/
def Unknown : List String → Prop
  | [] => False
  | [name] => ∀ g ∈ layout, g.1 ≠ name
  | name :: key :: _ => ∀ g ∈ layout, g.1 = name → ∀ k ∈ g.2, k.1 ≠ key

/-- One step from a document to another that says the same of the settings. -/
inductive Rewords : Parts → Parts → Prop
  | pairs {ps ps' ss} : ps.Perm ps' → Rewords ⟨ps, ss⟩ ⟨ps', ss⟩
  | sections {ps ss ss'} : ss.Perm ss' → Rewords ⟨ps, ss⟩ ⟨ps, ss'⟩
  | pairsOfSection {ps s qs ss} : s.pairs.Perm qs →
      Rewords ⟨ps, s :: ss⟩ ⟨ps, { s with pairs := qs } :: ss⟩
  | entries {name origin es es' ps ss} : es.Perm es' → (es.map Prod.fst).Nodup →
      Rewords ⟨(⟨[], name⟩, .table origin es) :: ps, ss⟩ ⟨(⟨[], name⟩, .table origin es') :: ps, ss⟩
  | addPair {k : Key} {v ps ss} : Unknown k.full → Rewords ⟨ps, ss⟩ ⟨(k, v) :: ps, ss⟩
  | addSection {ps ss} {s : Section} : Unknown s.key.full → Rewords ⟨ps, ss⟩ ⟨ps, s :: ss⟩
  | addPairOfSection {ps s ss} {k : Key} {v} : Unknown (s.key.full ++ k.full) →
      Rewords ⟨ps, s :: ss⟩ ⟨ps, { s with pairs := (k, v) :: s.pairs } :: ss⟩
  | addEntry {name key origin es v ps ss} : Unknown [name, key] →
      Rewords ⟨(⟨[], name⟩, .table origin es) :: ps, ss⟩
        ⟨(⟨[], name⟩, .table origin ((key, v) :: es)) :: ps, ss⟩
  /-- A header becomes the first part of dotted keys. -/
  | dotted {name ps qs ss} : Rewords ⟨ps, ⟨⟨[], name⟩, false, qs⟩ :: ss⟩
      ⟨qs.map (fun q => (q.1.under name, q.2)) ++ ps, ss⟩
  /-- The pairs below a header are written inline. None that is read holds an array of tables, as
  `Document.ne_tables_of_parts?` has it. -/
  | inline {name t ps qs ss} : Table.assignAll ⟨.inline, []⟩ qs = some t →
      (∀ q ∈ qs, ∀ p, q.2.fact? p ≠ some .tables) →
      Rewords ⟨ps, ⟨⟨[], name⟩, false, qs⟩ :: ss⟩ ⟨(⟨[], name⟩, t.value) :: ps, ss⟩
  /-- A table that gives the first fields of a section their values becomes an array of these. -/
  | array {name kinds origin es ps ss} : (name, kinds) ∈ layout →
      es.map Prod.fst <+: kinds.map Prod.fst →
      Rewords ⟨(⟨[], name⟩, .table origin es) :: ps, ss⟩
        ⟨(⟨[], name⟩, .array (es.map Prod.snd)) :: ps, ss⟩

/-- Some steps, each of them in either direction, lead from one text to another. -/
def Reworded (text text' : String) : Prop :=
  ∃ d d', Document.parts? text = some d ∧ Document.parts? text' = some d' ∧
    Relation.EqvGen Rewords d d'

/-! ## Facts that matter -/

/-- A fact that settings are read from: that a known section is not a table, or any about a known
field. -/
def Matters (p : List String) (f : Fact) : Prop :=
  ∃ g ∈ layout, (p = [g.1] ∧ f ≠ .table) ∨ ∃ k ∈ g.2, ∃ r, p = g.1 :: k.1 :: r

theorem not_matters_of_unknown {full p : List String} {f : Fact} (h : Unknown full)
    (hp : (p <+: full ∧ f = .table) ∨ full <+: p) : ¬ Matters p f := by
  rintro ⟨g, hg, ⟨rfl, hf⟩ | ⟨k, hk, r, rfl⟩⟩
  · rcases hp with ⟨-, hf'⟩ | hp
    · exact hf hf'
    · rcases full with _ | ⟨name, full⟩
      · exact h
      · obtain ⟨rfl, hrest⟩ := List.cons_prefix_cons.mp hp
        obtain rfl := List.prefix_nil.mp hrest
        exact h g hg rfl
  · rcases full with _ | ⟨name, _ | ⟨key, full⟩⟩
    · exact h
    · rcases hp with ⟨hp, -⟩ | hp
      · have hlength := hp.length_le
        simp at hlength
      · obtain ⟨rfl, -⟩ := List.cons_prefix_cons.mp hp
        exact h g hg rfl
    · have hkeys : g.1 = name ∧ k.1 = key := by
        rcases hp with ⟨hp, -⟩ | hp
        · obtain ⟨hname, hrest⟩ := List.cons_prefix_cons.mp hp
          exact ⟨hname, (List.cons_prefix_cons.mp hrest).1⟩
        · obtain ⟨hname, hrest⟩ := List.cons_prefix_cons.mp hp
          exact ⟨hname.symm, (List.cons_prefix_cons.mp hrest).1.symm⟩
      exact h g hg hkeys.1 k hk hkeys.2

/-! ## Agreement -/

/-- A document tells something about a field, by its key or by its position in an array. -/
def Gives (d : Parts) (name key : String) (i : Nat) (p : List String) (f : Fact) : Prop :=
  d.Tells (name :: key :: p) f ∨
    ∃ items v, d.Tells [name] (.plain (.array items)) ∧ items[i]? = some v ∧ v.fact? p = some f

/-- Two documents tell the same about every field, and about sections that are neither tables nor
arrays. -/
structure Agree (d d' : Parts) : Prop where
  sections : ∀ g ∈ layout, ∀ {f}, f ≠ .table → (∀ items, f ≠ .plain (.array items)) →
    (d.Tells [g.1] f ↔ d'.Tells [g.1] f)
  fields : ∀ g ∈ layout, ∀ {i k}, g.2[i]? = some k → ∀ {p f},
    Gives d g.1 k.1 i p f ↔ Gives d' g.1 k.1 i p f

theorem equivalence_agree : Equivalence Agree where
  refl _ := ⟨fun _ _ _ _ _ => Iff.rfl, fun _ _ _ _ _ _ _ => Iff.rfl⟩
  symm h := ⟨fun g hg _ hf hf' => (h.sections g hg hf hf').symm,
    fun g hg _ _ hk _ _ => (h.fields g hg hk).symm⟩
  trans h h' := ⟨fun g hg _ hf hf' => (h.sections g hg hf hf').trans (h'.sections g hg hf hf'),
    fun g hg _ _ hk _ _ => (h.fields g hg hk).trans (h'.fields g hg hk)⟩

theorem agree_of_tells {d d' : Parts}
    (h : ∀ {p f}, Matters p f → (d.Tells p f ↔ d'.Tells p f)) : Agree d d' where
  sections g hg f hf _ := h ⟨g, hg, .inl ⟨rfl, hf⟩⟩
  fields g hg i k hk p f := by
    have hkey : Matters (g.1 :: k.1 :: p) f :=
      ⟨g, hg, .inr ⟨k, List.mem_of_getElem? hk, p, rfl⟩⟩
    have harray : ∀ items, Matters [g.1] (.plain (.array items)) :=
      fun items => ⟨g, hg, .inl ⟨rfl, by simp⟩⟩
    simp only [Gives, h hkey, h (harray _)]

variable {ps ps' qs : List (Key × Value)} {ss ss' : List Section} {s : Section} {k : Key} {v : Value}
  {name key : String}

theorem agree_addPair (h : Unknown k.full) : Agree ⟨ps, ss⟩ ⟨(k, v) :: ps, ss⟩ := by
  refine agree_of_tells fun {p f} hmatters => ?_
  have hnone : ¬ k.Tells v p f :=
    fun htells => not_matters_of_unknown h (Key.tells_bounded htells) hmatters
  rw [Parts.tells_cons_pair, or_iff_right hnone]

theorem agree_addSection (h : Unknown s.key.full) : Agree ⟨ps, ss⟩ ⟨ps, s :: ss⟩ := by
  refine agree_of_tells fun {p f} hmatters => ?_
  have hnone : ¬ s.Tells p f :=
    fun htells => not_matters_of_unknown h (Section.tells_bounded htells) hmatters
  rw [Parts.tells_cons_section, or_iff_right hnone]

theorem agree_addPairOfSection (h : Unknown (s.key.full ++ k.full)) :
    Agree ⟨ps, s :: ss⟩ ⟨ps, { s with pairs := (k, v) :: s.pairs } :: ss⟩ := by
  refine agree_of_tells fun {p f} hmatters => ?_
  have hnone : ∀ r, p = s.key.full ++ r → ¬ k.Tells v r f := by
    rintro r rfl htells
    refine not_matters_of_unknown h ?_ hmatters
    rcases Key.tells_bounded htells with ⟨hr, hf⟩ | hr
    · exact .inl ⟨(List.prefix_append_right_inj _).mpr hr, hf⟩
    · exact .inr ((List.prefix_append_right_inj _).mpr hr)
  rw [Parts.tells_cons_section, Parts.tells_cons_section]
  refine or_congr_left ?_
  rw [Section.tells_iff, Section.tells_iff]
  refine or_congr_right (exists_congr fun r => and_congr_right fun hp => ?_)
  have hpairs : PairsTell ((k, v) :: s.pairs) r f ↔ PairsTell s.pairs r f := by
    simp [PairsTell, hnone r hp]
  simp only [Section.Opens, hpairs]
  rfl

theorem agree_entries {origin : Origin} {es es' : Entries} (hperm : es.Perm es')
    (hnodup : (es.map Prod.fst).Nodup) :
    Agree ⟨(⟨[], name⟩, .table origin es) :: ps, ss⟩ ⟨(⟨[], name⟩, .table origin es') :: ps, ss⟩ := by
  have hfacts : ∀ r, (Value.table origin es).fact? r = (Value.table origin es').fact? r := by
    intro r
    cases r with
    | nil => rfl
    | cons key r => rw [Value.fact?_table_cons, Value.fact?_table_cons, Entries.get?_perm hperm hnodup]
  refine agree_of_tells fun {p f} _ => ?_
  simp only [Parts.tells_cons_pair, Key.tells_iff, hfacts]

theorem agree_addEntry {origin : Origin} {es : Entries} (h : Unknown [name, key]) :
    Agree ⟨(⟨[], name⟩, .table origin es) :: ps, ss⟩
      ⟨(⟨[], name⟩, .table origin ((key, v) :: es)) :: ps, ss⟩ := by
  refine agree_of_tells fun {p f} hmatters => ?_
  rw [Parts.tells_cons_pair, Parts.tells_cons_pair]
  refine or_congr_left ?_
  rw [Key.tells_iff, Key.tells_iff]
  refine or_congr_right (exists_congr fun r => and_congr_right fun hp => ?_)
  rcases r with _ | ⟨key', r⟩
  · rfl
  · have hne : key ≠ key' := by
      rintro rfl
      refine not_matters_of_unknown h (.inr ?_) hmatters
      rw [hp]
      exact ⟨r, rfl⟩
    rw [Value.fact?_table_cons, Value.fact?_table_cons, Entries.get?_cons, if_neg hne]

/-- A name and its value, in terms of the name. -/
theorem named_tells_iff {p : List String} {f : Fact} :
    Key.Tells ⟨[], name⟩ v p f ↔
      (p = [] ∧ f = .table) ∨ ∃ r, p = name :: r ∧ v.fact? r = some f := by
  simp [Key.tells_iff, Key.full]

/-- A header with pairs below it, in terms of the name in the header. -/
theorem header_tells_iff {p : List String} {f : Fact} :
    Section.Tells ⟨⟨[], name⟩, false, qs⟩ p f ↔
      (p = [] ∧ f = .table) ∨ ∃ r, p = name :: r ∧ ((r = [] ∧ f = .table) ∨ PairsTell qs r f) := by
  simp [Section.tells_iff, Section.opens_of_single, Key.full]

theorem under_tells_iff {p : List String} {f : Fact} :
    (k.under name).Tells v p f ↔ (p = [] ∧ f = .table) ∨ ∃ r, p = name :: r ∧ k.Tells v r f :=
  below_cons

theorem Matters.ne {p : List String} {f : Fact} (h : Matters p f) :
    p ≠ [] ∧ ∀ name, p = [name] → f ≠ .table := by
  obtain ⟨g, -, ⟨rfl, hf⟩ | ⟨k, -, r, rfl⟩⟩ := h
  · exact ⟨by simp, fun _ _ => hf⟩
  · exact ⟨by simp, fun _ h => by simp at h⟩

theorem agree_dotted : Agree ⟨ps, ⟨⟨[], name⟩, false, qs⟩ :: ss⟩
    ⟨qs.map (fun q => (q.1.under name, q.2)) ++ ps, ss⟩ := by
  refine agree_of_tells fun {p f} hmatters => ?_
  obtain ⟨hroot, hsection⟩ := hmatters.ne
  have hpairs : PairsTell (qs.map fun q => (q.1.under name, q.2)) p f ↔
      ∃ r, p = name :: r ∧ PairsTell qs r f := by
    constructor
    · rintro ⟨_, hmem, htells⟩
      obtain ⟨q, hq, rfl⟩ := List.mem_map.mp hmem
      rcases under_tells_iff.mp htells with ⟨hp, -⟩ | ⟨r, hp, hr⟩
      · exact absurd hp hroot
      · exact ⟨r, hp, q, hq, hr⟩
    · rintro ⟨r, hp, q, hq, hr⟩
      exact ⟨_, List.mem_map_of_mem hq, under_tells_iff.mpr (.inr ⟨r, hp, hr⟩)⟩
  have happend : Parts.Tells ⟨qs.map (fun q => (q.1.under name, q.2)) ++ ps, ss⟩ p f ↔
      PairsTell (qs.map fun q => (q.1.under name, q.2)) p f ∨ Parts.Tells ⟨ps, ss⟩ p f := by
    simp only [Parts.Tells, PairsTell, List.mem_append, or_and_right, exists_or, or_assoc]
  rw [Parts.tells_cons_section, happend, header_tells_iff, hpairs]
  refine or_congr_left ⟨?_, ?_⟩
  · rintro (⟨hp, -⟩ | ⟨r, hp, ⟨rfl, hf⟩ | hr⟩)
    · exact absurd hp hroot
    · exact absurd hf (hsection name hp)
    · exact ⟨r, hp, hr⟩
  · rintro ⟨r, hp, hr⟩
    exact .inr ⟨r, hp, .inr hr⟩

theorem agree_inline {t : Table} (ht : Table.assignAll ⟨.inline, []⟩ qs = some t)
    (htables : ∀ q ∈ qs, ∀ p, q.2.fact? p ≠ some .tables) :
    Agree ⟨ps, ⟨⟨[], name⟩, false, qs⟩ :: ss⟩ ⟨(⟨[], name⟩, t.value) :: ps, ss⟩ := by
  refine agree_of_tells fun {p f} _ => ?_
  simp only [Parts.tells_cons_section, Parts.tells_cons_pair, header_tells_iff, named_tells_iff,
    ← Table.fact?_assignAll ht htables]
  rfl

theorem get?_of_prefix {es : Entries} : ∀ {keys : List String} {i : Nat}, keys.Nodup →
    es.map Prod.fst <+: keys → keys[i]? = some key →
      Entries.get? es key = (es.map Prod.snd)[i]? := by
  induction es with
  | nil => exact fun _ _ _ => rfl
  | cons e rest ih =>
    intro keys i hnodup hleading h
    cases keys with
    | nil => cases h
    | cons key' keys =>
      obtain ⟨hkey, hrest⟩ := List.cons_prefix_cons.mp hleading
      obtain ⟨hfresh, hnodup⟩ := List.nodup_cons.mp hnodup
      rw [Entries.get?_cons, hkey]
      cases i with
      | zero =>
        cases h
        rw [if_pos rfl]
        rfl
      | succ i =>
        have hmem : key ∈ keys := List.mem_of_getElem? h
        have hne : key' ≠ key := fun heq => hfresh (heq ▸ hmem)
        rw [if_neg hne, ih hnodup hrest h]
        rfl

theorem keys_of_layout {g : String × List (String × Kind)} (hg : g ∈ layout) :
    (g.2.map Prod.fst).Nodup := by
  have hall : ∀ g ∈ layout, (g.2.map Prod.fst).Nodup := by decide
  exact hall g hg

theorem eq_of_layout {g g' : String × List (String × Kind)} (hg : g ∈ layout) (hg' : g' ∈ layout)
    (hname : g.1 = g'.1) : g = g' := by
  have hnodup : (layout.map Prod.fst).Nodup := by decide
  exact List.inj_on_of_nodup_map hnodup hg hg' hname

theorem agree_array {kinds : List (String × Kind)} {origin : Origin} {es : Entries}
    (hmem : (name, kinds) ∈ layout) (hleading : es.map Prod.fst <+: kinds.map Prod.fst) :
    Agree ⟨(⟨[], name⟩, .table origin es) :: ps, ss⟩
      ⟨(⟨[], name⟩, .array (es.map Prod.snd)) :: ps, ss⟩ := by
  refine ⟨fun g hg f hf hf' => ?_, fun g hg i k hk p f => ?_⟩
  · have hnone : ∀ v : Value, v.fact ≠ f → ¬ Key.Tells ⟨[], name⟩ v [g.1] f := by
      rintro v hv htells
      rcases named_tells_iff.mp htells with ⟨hp, -⟩ | ⟨r, hp, hr⟩
      · cases hp
      · cases hp
        exact hv (Option.some.inj hr)
    rw [Parts.tells_cons_pair, Parts.tells_cons_pair, or_iff_right (hnone (.table ..) hf.symm),
      or_iff_right (hnone (.array _) (hf' _).symm)]
  · by_cases hname : g.1 = name
    · obtain rfl : g = (name, kinds) := eq_of_layout hg hmem hname
      have hkey : (kinds.map Prod.fst)[i]? = some k.1 := by rw [List.getElem?_map, hk]; rfl
      have hget := get?_of_prefix (keys_of_layout hg) hleading hkey
      -- the table tells by key what the array tells by position, and neither tells anything else
      have htable : Key.Tells ⟨[], name⟩ (.table origin es) (name :: k.1 :: p) f ↔
          ∃ v, (es.map Prod.snd)[i]? = some v ∧ v.fact? p = some f := by
        simp only [named_tells_iff, Value.fact?_table_cons, hget, Option.bind_eq_some_iff,
          List.cons.injEq, true_and, exists_eq_left', reduceCtorEq, false_and, false_or]
      have htable' : ∀ items', ¬ Key.Tells ⟨[], name⟩ (.table origin es) [name]
          (.plain (.array items')) := by
        simp [named_tells_iff, Value.fact?_nil, Value.fact]
      have harray : ∀ items', Key.Tells ⟨[], name⟩ (.array (es.map Prod.snd)) [name]
          (.plain (.array items')) ↔ es.map Prod.snd = items' := by
        simp [named_tells_iff, Value.fact?_nil, Value.fact]
      have harray' : ¬ Key.Tells ⟨[], name⟩ (.array (es.map Prod.snd)) (name :: k.1 :: p) f := by
        simp [named_tells_iff, Value.fact?, Value.at?]
      simp only [Gives, Parts.tells_cons_pair, htable, htable', harray, harray', false_or,
        or_and_right, exists_or, exists_and_left, exists_eq_left']
      exact or_assoc.trans or_left_comm
    · have hnone : ∀ (v : Value) (r : List String) (f : Fact),
          ¬ Key.Tells ⟨[], name⟩ v (g.1 :: r) f := by
        rintro v r f htells
        rcases named_tells_iff.mp htells with ⟨hp, -⟩ | ⟨r', hp, -⟩
        · cases hp
        · exact hname (List.cons.inj hp).1
      simp only [Gives, Parts.tells_cons_pair, hnone, false_or]

theorem agree_of_rewords {d d' : Parts} (h : Rewords d d') : Agree d d' := by
  cases h with
  | pairs hperm =>
    exact agree_of_tells fun _ => by simp only [Parts.Tells, PairsTell, hperm.mem_iff]
  | sections hperm => exact agree_of_tells fun _ => by simp only [Parts.Tells, hperm.mem_iff]
  | pairsOfSection hperm =>
    refine agree_of_tells fun {p f} _ => ?_
    rw [Parts.tells_cons_section, Parts.tells_cons_section]
    refine or_congr_left (Section.tells_congr fun {p f} => ?_)
    simp only [PairsTell, hperm.mem_iff]
  | entries hperm hnodup => exact agree_entries hperm hnodup
  | addPair h => exact agree_addPair h
  | addSection h => exact agree_addSection h
  | addPairOfSection h => exact agree_addPairOfSection h
  | addEntry h => exact agree_addEntry h
  | dotted => exact agree_dotted
  | inline ht htables => exact agree_inline ht htables
  | array hmem hleading => exact agree_array hmem hleading

theorem agree_of_eqvGen {d d' : Parts} (h : Relation.EqvGen Rewords d d') : Agree d d' :=
  equivalence_agree.eqvGen_iff.mp (h.mono fun _ _ => agree_of_rewords)

/-! ## Values with the same facts -/

/-- Two values have the same facts. -/
def SameFacts (v v' : Value) : Prop :=
  ∀ p, v.fact? p = v'.fact? p

section

variable {v' : Value} {es es' : Entries} {origin origin' : Origin}

theorem eq_of_fact {w : Value} (h : v.fact = .plain w) : v = w := by
  cases v <;> simp_all [Value.fact]

theorem fact_of_isScalar (h : v.isScalar = true) : v.fact = .plain v := by
  cases v with
  | table | tables => cases h
  | _ => rfl

theorem SameFacts.eq_of_plain (h : SameFacts v v') (hv : v.fact = .plain v) : v' = v := by
  have hfact : v.fact = v'.fact := Option.some.inj (h [])
  exact eq_of_fact (hfact.symm.trans hv)

theorem SameFacts.table (h : SameFacts (.table origin es) v') : ∃ origin' es', v' = .table origin' es' := by
  have hfact : Fact.table = v'.fact := Option.some.inj (h [])
  cases v' with
  | table origin' es' => exact ⟨origin', es', rfl⟩
  | _ => cases hfact

/-- The values of a key are both there, with the same facts, or neither is. -/
theorem SameFacts.get? (h : SameFacts (.table origin es) (.table origin' es')) (key : String) :
    (Entries.get? es key = none ∧ Entries.get? es' key = none) ∨
      ∃ w w', Entries.get? es key = some w ∧ Entries.get? es' key = some w' ∧ SameFacts w w' := by
  have hkey : ∀ p, (Entries.get? es key).bind (·.fact? p) = (Entries.get? es' key).bind (·.fact? p) :=
    fun p => (Value.fact?_table_cons origin es key p).symm.trans
      ((h (key :: p)).trans (Value.fact?_table_cons origin' es' key p))
  cases hes : Entries.get? es key with
  | none =>
    cases hes' : Entries.get? es' key with
    | none => exact .inl ⟨rfl, rfl⟩
    | some w' =>
      have hnil := hkey []
      rw [hes, hes'] at hnil
      cases hnil
  | some w =>
    cases hes' : Entries.get? es' key with
    | none =>
      have hnil := hkey []
      rw [hes, hes'] at hnil
      cases hnil
    | some w' =>
      refine .inr ⟨w, w', rfl, rfl, fun p => ?_⟩
      have hp := hkey p
      rw [hes, hes'] at hp
      exact hp

theorem SameFacts.nil (h : SameFacts (.table origin []) (.table origin' es')) : es' = [] := by
  cases es' with
  | nil => rfl
  | cons e rest =>
    rcases h.get? e.1 with ⟨-, hnone⟩ | ⟨w, -, hw, -⟩
    · rw [Entries.get?_cons, if_pos rfl] at hnone
      cases hnone
    · cases hw

theorem SameFacts.single {w : Value} (h : SameFacts (.table origin [(key, w)]) (.table origin' es'))
    (hnodup : (es'.map Prod.fst).Nodup) : ∃ w', es' = [(key, w')] ∧ SameFacts w w' := by
  have hkeys : ∀ e ∈ es', e.1 = key := by
    intro e he
    rcases h.get? e.1 with ⟨-, hnone⟩ | ⟨x, -, hx, -⟩
    · rw [Entries.get?_of_mem hnodup he] at hnone
      cases hnone
    · rw [Entries.get?_cons] at hx
      by_contra hne
      rw [if_neg (Ne.symm hne)] at hx
      cases hx
  have hself : Entries.get? [(key, w)] key = some w := by rw [Entries.get?_cons, if_pos rfl]
  rcases h.get? key with ⟨hnone, -⟩ | ⟨x, x', hx, hx', hsame⟩
  · cases hself.symm.trans hnone
  · cases hself.symm.trans hx
    rcases es' with _ | ⟨e, _ | ⟨e', rest⟩⟩
    · cases hx'
    · have hkey : e.1 = key := hkeys e (by simp)
      rw [Entries.get?_cons, if_pos hkey] at hx'
      cases hx'
      exact ⟨e.2, by rw [← hkey], hsame⟩
    · have hkey : e.1 = e'.1 := (hkeys e (by simp)).trans (hkeys e' (by simp)).symm
      simp [hkey] at hnodup

/-- A value of an alphabet is its name, or a table with the name and nothing else in it. -/
theorem alphabet?_cases (h : (alphabet? v).isSome = true) : (∃ name, v = .string name) ∨
    ∃ origin name payload, v = .table origin [(name, payload)] ∧
      (payload = .array [] ∨ ∃ origin', payload = .table origin' []) := by
  unfold alphabet? at h
  split at h
  · exact .inl ⟨_, rfl⟩
  · exact .inr ⟨_, _, _, rfl, .inr ⟨_, rfl⟩⟩
  · exact .inr ⟨_, _, _, rfl, .inl rfl⟩
  · cases h

theorem alphabet?_of_sameFacts (h : SameFacts v v') (hdistinct : v'.Distinct)
    (hsome : (alphabet? v).isSome = true) : alphabet? v' = alphabet? v := by
  rcases alphabet?_cases hsome with ⟨name, rfl⟩ | ⟨origin, name, payload, rfl, hpayload⟩
  · rw [h.eq_of_plain rfl]
  · obtain ⟨origin', es', rfl⟩ := h.table
    have htable : Table.Distinct ⟨origin', es'⟩ := hdistinct
    obtain ⟨w', rfl, hsame⟩ := h.single (Table.distinct_iff.mp htable).1
    rcases hpayload with rfl | ⟨origin'', rfl⟩
    · rw [hsame.eq_of_plain rfl]
      rfl
    · obtain ⟨origin₃, es₃, rfl⟩ := hsame.table
      rw [hsame.nil]
      rfl

/-- What is of a kind is a scalar, or one of the tables that name an alphabet. -/
theorem isScalar_or_alphabet {kind : Kind} (h : kind.admits v = true) :
    v.isScalar = true ∨ (kind = .alphabet ∧ (alphabet? v).isSome = true) := by
  cases kind with
  | alphabet => exact .inr ⟨rfl, h⟩
  | _ => cases v <;> first | exact .inl rfl | cases h

/-- What a field takes is read off the facts of its value. -/
theorem admits_of_sameFacts {kind : Kind} (h : SameFacts v v') (hdistinct : v'.Distinct)
    (hadmits : kind.admits v = true) : v' = v ∨ (kind = .alphabet ∧ alphabet? v' = alphabet? v) := by
  rcases isScalar_or_alphabet hadmits with hscalar | ⟨hkind, hsome⟩
  · exact .inl (h.eq_of_plain (fact_of_isScalar hscalar))
  · exact .inr ⟨hkind, alphabet?_of_sameFacts h hdistinct hsome⟩

theorem fact?_ne_tables_of_plain (h : v.fact = .plain v) (q : List String) :
    v.fact? q ≠ some .tables := by
  cases q with
  | nil =>
    rw [Value.fact?_nil, h]
    simp
  | cons key q =>
    cases v with
    | table | tables => cases h
    | _ => exact nofun

/-- No array of tables is in what a field takes. -/
theorem fact?_ne_tables_of_admits {kind : Kind} (h : kind.admits v = true) (q : List String) :
    v.fact? q ≠ some .tables := by
  rcases isScalar_or_alphabet h with hscalar | ⟨-, hsome⟩
  · exact fact?_ne_tables_of_plain (fact_of_isScalar hscalar) q
  · rcases alphabet?_cases hsome with ⟨name, rfl⟩ | ⟨origin, name, payload, rfl, hpayload⟩
    · exact fact?_ne_tables_of_plain rfl q
    · rcases q with _ | ⟨key, q⟩
      · exact nofun
      · rw [Value.fact?_table_cons, Entries.get?_cons]
        split
        · rcases hpayload with rfl | ⟨origin', rfl⟩
          · exact fact?_ne_tables_of_plain rfl q
          · cases q with
            | nil => exact nofun
            | cons key' q => exact nofun
        · exact nofun

end

/-! ## From lines to tables -/

section

variable {d d' : Parts} {root root' : Table} {i : Nat} {p : List String} {f : Fact}

/-- What a document gives a field has a fact. -/
def GivenFact (root : Table) (name key : String) (i : Nat) (p : List String) (f : Fact) : Prop :=
  ∃ v, given? root.entries name key i = some v ∧ v.fact? p = some f

theorem gives_of_givenFact (hroot : d.assemble? = some root) (h : GivenFact root name key i p f) :
    Gives d name key i p f := by
  obtain ⟨v, hv, hfact⟩ := h
  obtain ⟨w, hw, hv⟩ := Option.bind_eq_some_iff.mp hv
  unfold Value.given? at hv
  split at hv
  · refine .inl ((Parts.fact_iff_tells hroot).1 ?_)
    rw [Table.fact?_cons, hw, Option.bind_some, Value.fact?_table_cons, hv]
    exact hfact
  · next items =>
    refine .inr ⟨items, v, (Parts.fact_iff_tells hroot).1 ?_, hv, hfact⟩
    rw [Table.fact?_cons, hw]
    rfl
  · cases hv

theorem get?_of_fact? (h : root.fact? [name] = some f) :
    ∃ v, root.entries.get? name = some v ∧ v.fact = f := by
  rw [Table.fact?_cons] at h
  obtain ⟨v, hv, hf⟩ := Option.bind_eq_some_iff.mp h
  exact ⟨v, hv, Option.some.inj hf⟩

/-- A fact below a key of a section is one of what a document gives, as only tables have keys. -/
theorem givenFact_of_fact? (h : root.fact? (name :: key :: p) = some f) :
    GivenFact root name key i p f := by
  rw [Table.fact?_cons] at h
  obtain ⟨w, hw, hfact⟩ := Option.bind_eq_some_iff.mp h
  cases w with
  | table origin entries =>
    rw [Value.fact?_table_cons] at hfact
    obtain ⟨v, hv, hfact⟩ := Option.bind_eq_some_iff.mp hfact
    exact ⟨v, by rw [given?, hw]; exact hv, hfact⟩
  | _ => cases hfact

theorem givenFact_of_gives (hroot : d.assemble? = some root)
    (htables : root.fact? [name] ≠ some .tables) (h : Gives d name key i p f) :
    GivenFact root name key i p f ∨ ∃ q, GivenFact root name key i q .tables := by
  rcases h with htells | ⟨items, v, htells, hv, hfact⟩
  · rcases (Parts.fact_iff_tells hroot).2 htells with hfact | ⟨q, hq, hfact⟩
    · exact .inl (givenFact_of_fact? hfact)
    · rcases q with _ | ⟨name', _ | ⟨key', q⟩⟩
      · cases hfact
      · obtain ⟨rfl, -⟩ := List.cons_prefix_cons.mp hq
        exact absurd hfact htables
      · obtain ⟨rfl, hrest⟩ := List.cons_prefix_cons.mp hq
        obtain ⟨rfl, -⟩ := List.cons_prefix_cons.mp hrest
        exact .inr ⟨q, givenFact_of_fact? hfact⟩
  · rcases (Parts.fact_iff_tells hroot).2 htells with hsection | ⟨q, hq, hfact⟩
    · obtain ⟨w, hw, harray⟩ := get?_of_fact? hsection
      obtain rfl := eq_of_fact harray
      exact .inl ⟨v, by rw [given?, hw]; exact hv, hfact⟩
    · rcases q with _ | ⟨name', q⟩
      · cases hfact
      · obtain ⟨rfl, hrest⟩ := List.cons_prefix_cons.mp hq
        obtain rfl := List.prefix_nil.mp hrest
        exact absurd hfact htables

theorem given?_distinct {root : Entries} (hroot : Table.Distinct ⟨.header, root⟩) {v : Value}
    (hv : given? root name key i = some v) : v.Distinct := by
  obtain ⟨w, hw, hv⟩ := Option.bind_eq_some_iff.mp hv
  have hdistinct : w.Distinct := hroot.get? hw
  unfold Value.given? at hv
  split at hv
  · next origin entries =>
    have htable : Table.Distinct ⟨origin, entries⟩ := hdistinct
    exact htable.get? hv
  · next items =>
    cases hdistinct with
    | scalar hscalar => cases hscalar
    | array hitems => exact hitems v (List.mem_of_getElem? hv)
  · cases hv

/-- What is neither a table nor an array stands for a section in both documents or in none. -/
theorem fact?_section (hagree : Agree d d') (hroot : d.assemble? = some root)
    (hroot' : d'.assemble? = some root') {g : String × List (String × Kind)} (hg : g ∈ layout)
    (hsection : root.fact? [g.1] ≠ some .tables) (hf : f ≠ .table)
    (hf' : ∀ items, f ≠ .plain (.array items)) (h : root'.fact? [g.1] = some f) :
    root.fact? [g.1] = some f := by
  have htells := (hagree.sections g hg hf hf').mpr ((Parts.fact_iff_tells hroot').1 h)
  refine ((Parts.fact_iff_tells hroot).2 htells).resolve_right ?_
  rintro ⟨_ | ⟨name, q⟩, hq, hfact⟩
  · cases hfact
  · obtain ⟨rfl, hrest⟩ := List.cons_prefix_cons.mp hq
    obtain rfl := List.prefix_nil.mp hrest
    exact hsection hfact

theorem fact?_ne_tables_of_fits (hfits : Fits root.entries) {g : String × List (String × Kind)}
    (hg : g ∈ layout) : root.fact? [g.1] ≠ some .tables := by
  intro hfact
  obtain ⟨v, hv, htables⟩ := get?_of_fact? hfact
  have hgroup := (hfits g hg).1 v hv
  cases v with
  | tables elements => cases hgroup
  | _ => cases htables

/-- What fields are read from does not tell two documents apart that agree. -/
theorem givenFact_iff (hagree : Agree d d') (hroot : d.assemble? = some root)
    (hroot' : d'.assemble? = some root') (hfits : Fits root.entries)
    {g : String × List (String × Kind)} (hg : g ∈ layout) {k : String × Kind} (hk : g.2[i]? = some k) :
    GivenFact root g.1 k.1 i p f ↔ GivenFact root' g.1 k.1 i p f := by
  have hsection := fact?_ne_tables_of_fits hfits hg
  have hsection' : root'.fact? [g.1] ≠ some .tables := by
    intro hfact
    exact hsection (fact?_section hagree hroot hroot' hg hsection (by simp) (by simp) hfact)
  have hnone : ∀ q, ¬ GivenFact root g.1 k.1 i q .tables := by
    rintro q ⟨v, hv, hfact⟩
    exact fact?_ne_tables_of_admits ((hfits g hg).2 i k hk v hv) q hfact
  have hback : ∀ {p f}, GivenFact root' g.1 k.1 i p f → GivenFact root g.1 k.1 i p f := by
    intro p f h
    have hgives := (hagree.fields g hg hk).mpr (gives_of_givenFact hroot' h)
    exact (givenFact_of_gives hroot hsection hgives).resolve_right fun ⟨q, hq⟩ => hnone q hq
  refine ⟨fun h => ?_, hback⟩
  have hgives := (hagree.fields g hg hk).mp (gives_of_givenFact hroot h)
  exact (givenFact_of_gives hroot' hsection' hgives).resolve_right fun ⟨q, hq⟩ => hnone q (hback hq)

/-- Two documents that agree give a field nothing, or values with the same facts. -/
theorem given?_of_agree (hagree : Agree d d') (hroot : d.assemble? = some root)
    (hroot' : d'.assemble? = some root') (hfits : Fits root.entries)
    {g : String × List (String × Kind)} (hg : g ∈ layout) {k : String × Kind} (hk : g.2[i]? = some k) :
    (given? root.entries g.1 k.1 i = none ∧ given? root'.entries g.1 k.1 i = none) ∨
      ∃ v v', given? root.entries g.1 k.1 i = some v ∧ given? root'.entries g.1 k.1 i = some v' ∧
        SameFacts v v' := by
  have hiff : ∀ {p f}, GivenFact root g.1 k.1 i p f ↔ GivenFact root' g.1 k.1 i p f :=
    givenFact_iff hagree hroot hroot' hfits hg hk
  cases hv : given? root.entries g.1 k.1 i with
  | none =>
    cases hv' : given? root'.entries g.1 k.1 i with
    | none => exact .inl ⟨rfl, rfl⟩
    | some v' =>
      obtain ⟨v, hv'', -⟩ := hiff.mpr ⟨v', hv', v'.fact?_nil⟩
      cases hv.symm.trans hv''
  | some v =>
    obtain ⟨v', hv', -⟩ := hiff.mp ⟨v, hv, v.fact?_nil⟩
    refine .inr ⟨v, v', rfl, hv', fun p => Option.ext fun f => ?_⟩
    constructor
    · intro hf
      obtain ⟨w, hw, hf⟩ := hiff.mp ⟨v, hv, hf⟩
      cases hv'.symm.trans hw
      exact hf
    · intro hf
      obtain ⟨w, hw, hf⟩ := hiff.mpr ⟨v', hv', hf⟩
      cases hv.symm.trans hw
      exact hf

/-- What is read of a field is the same in two documents that agree. -/
theorem read_of_agree {β : Type} (hagree : Agree d d') (hroot : d.assemble? = some root)
    (hroot' : d'.assemble? = some root') (hfits : Fits root.entries)
    (hdistinct : Table.Distinct ⟨.header, root'.entries⟩) {kinds : List (String × Kind)} {kind : Kind}
    (hg : (name, kinds) ∈ layout) (hk : kinds[i]? = some (key, kind)) {read : Value → Option β}
    (hread : kind = .alphabet → ∀ {v v'}, alphabet? v = alphabet? v' → read v = read v') :
    (given? root'.entries name key i).bind read = (given? root.entries name key i).bind read := by
  rcases given?_of_agree hagree hroot hroot' hfits hg hk with ⟨hv, hv'⟩ | ⟨v, v', hv, hv', hsame⟩
  · rw [hv, hv']
  · rw [hv, hv', Option.bind_some, Option.bind_some]
    have hadmits := (hfits _ hg).2 i _ hk v hv
    rcases admits_of_sameFacts hsame (given?_distinct hdistinct hv') hadmits with rfl | ⟨hkind, heq⟩
    · rfl
    · exact hread hkind heq

theorem isGroup_iff : v.isGroup = true ↔ v.fact = .table ∨ ∃ items, v.fact = .plain (.array items) := by
  cases v <;> simp [Value.isGroup, Value.fact]

theorem fits_of_agree (hagree : Agree d d') (hroot : d.assemble? = some root)
    (hroot' : d'.assemble? = some root') (hfits : Fits root.entries)
    (hdistinct : Table.Distinct ⟨.header, root'.entries⟩) : Fits root'.entries := by
  refine fun g hg => ⟨fun v' hv' => ?_, fun i k hk v' hv' => ?_⟩
  · by_contra hgroup
    have hfact : root'.fact? [g.1] = some v'.fact := by
      rw [Table.fact?_cons, hv']
      rfl
    have hne : v'.fact ≠ .table ∧ ∀ items, v'.fact ≠ .plain (.array items) := by
      rw [isGroup_iff, not_or, not_exists] at hgroup
      exact hgroup
    obtain ⟨v, hv, hsame⟩ := get?_of_fact? (fact?_section hagree hroot hroot' hg
      (fact?_ne_tables_of_fits hfits hg) hne.1 hne.2 hfact)
    have hgroup' := (hfits g hg).1 v hv
    rw [isGroup_iff, hsame, ← isGroup_iff] at hgroup'
    exact hgroup hgroup'
  · rcases given?_of_agree hagree hroot hroot' hfits hg hk with ⟨-, hnone⟩ | ⟨v, w, hv, hw, hsame⟩
    · cases hv'.symm.trans hnone
    · cases hv'.symm.trans hw
      have hadmits := (hfits g hg).2 i k hk v hv
      rcases admits_of_sameFacts hsame (given?_distinct hdistinct hv') hadmits with rfl | ⟨hkind, heq⟩
      · exact hadmits
      · rw [hkind] at hadmits ⊢
        exact (congrArg Option.isSome heq).trans hadmits

theorem overlay_of_agree (hagree : Agree d d') (hroot : d.assemble? = some root)
    (hroot' : d'.assemble? = some root') (hfits : Fits root.entries)
    (hdistinct : Table.Distinct ⟨.header, root'.entries⟩) :
    overlay root'.entries = overlay root.entries := by
  have hlistener : ("listener", [("bind_address", Kind.text)]) ∈ layout := by simp [layout]
  have htimeouts : ("timeouts", [("connect_secs", Kind.count), ("request_secs", .count)]) ∈ layout := by
    simp [layout]
  have hhandshake : ("handshake", [("enabled", Kind.boolean), ("accept_alphabet", .alphabet)]) ∈ layout := by
    simp [layout]
  have hobservability : ("observability", [("log_level", Kind.text)]) ∈ layout := by simp [layout]
  have hsame : ∀ {name key : String} {i : Nat} {kinds : List (String × Kind)} {kind : Kind} {β : Type}
      {read : Value → Option β}, (name, kinds) ∈ layout → kinds[i]? = some (key, kind) →
      (kind = .alphabet → ∀ {v v'}, alphabet? v = alphabet? v' → read v = read v') →
      (given? root'.entries name key i).bind read = (given? root.entries name key i).bind read :=
    fun hg hk hread => read_of_agree hagree hroot hroot' hfits hdistinct hg hk hread
  simp only [overlay]
  rw [hsame hlistener rfl (by simp), hsame htimeouts rfl (by simp), hsame htimeouts rfl (by simp),
    hsame hhandshake rfl (by simp), hsame hhandshake rfl fun _ _ _ h => h,
    hsame hobservability rfl (by simp)]

end

theorem parse_of_ofDocument {text : String} {root : Entries} {s : Settings}
    (hread : Document.read? text = some root) (hok : ofDocument root = .ok s) :
    parse text = s.check := by
  simp only [parse, hread, hok]

/-- **A document is laid over the defaults field by field.** If the sections that the settings know are
tables or arrays and give only values of the right kinds, then the settings can be read, and each
field is what the document gives it, or its default if the document gives nothing. Limits that are
whole numbers are kept as they are. And no rewording changes the settings: not the order of lines and
entries, nothing that the settings do not know, and no other way to write a section. -/
theorem overlay_of_document {text : String} {root : Entries} (hread : Document.read? text = some root)
    (hfits : Fits root) :
    ofDocument root = .ok (overlay root) ∧ parse text = (overlay root).check ∧
      (∀ n : Nat, given? root "timeouts" "connect_secs" 0 = some (.integer n) →
        (overlay root).timeouts.connectSecs = n) ∧
      (∀ n : Nat, given? root "timeouts" "request_secs" 1 = some (.integer n) →
        (overlay root).timeouts.requestSecs = n) ∧
      ∀ {text' : String} {root' : Entries}, Document.read? text' = some root' → Reworded text text' →
        Fits root' ∧ ofDocument root' = .ok (overlay root) ∧ parse text' = (overlay root).check := by
  have hparts : ∀ {text : String} {root : Entries}, Document.read? text = some root →
      ∃ d t, Document.parts? text = some d ∧ d.assemble? = some t ∧ t.entries = root ∧
        Table.Distinct ⟨.header, t.entries⟩ := by
    intro text root h
    rw [Document.read?_eq] at h
    obtain ⟨d, hd, h⟩ := Option.bind_eq_some_iff.mp h
    obtain ⟨t, ht, hroot⟩ := Option.map_eq_some_iff.mp h
    have hdistinct := Table.distinct_iff.mp (Document.distinct_root hd ht)
    exact ⟨d, t, hd, ht, hroot, Table.distinct_iff.mpr hdistinct⟩
  obtain ⟨d, t, hd, ht, rfl, hdistinct⟩ := hparts hread
  have hok := ofDocument_eq_overlay hdistinct hfits
  refine ⟨hok, parse_of_ofDocument hread hok, fun n hn => ?_, fun n hn => ?_, ?_⟩
  · simp only [overlay, hn]
    rfl
  · simp only [overlay, hn]
    rfl
  · rintro text' root' hread' ⟨d₁, d₂, hd₁, hd₂, hreworded⟩
    obtain ⟨d', t', hd', ht', rfl, hdistinct'⟩ := hparts hread'
    cases hd.symm.trans hd₁
    cases hd'.symm.trans hd₂
    have hagree := agree_of_eqvGen hreworded
    have hfits' := fits_of_agree hagree ht ht' hfits hdistinct'
    have hok' := ofDocument_eq_overlay hdistinct' hfits'
    rw [overlay_of_agree hagree ht ht' hfits hdistinct'] at hok'
    exact ⟨hfits', hok', parse_of_ofDocument hread' hok'⟩

instance (root : Entries) : Decidable (Fits root) :=
  decidable_of_iff (∀ g ∈ layout, (root.get? g.1).all Value.isGroup = true ∧
      ∀ k ∈ g.2.zipIdx, (given? root g.1 k.1.1 k.2).all k.1.2.admits = true) <| by
    simp only [Fits, Option.all_eq_true, List.mem_zipIdx_iff_getElem?, Prod.forall]
    constructor
    · exact fun h name kinds hg => ⟨(h name kinds hg).1, fun i key kind hk => (h name kinds hg).2 key kind i hk⟩
    · exact fun h name kinds hg => ⟨(h name kinds hg).1, fun key kind i hk => (h name kinds hg).2 i key kind hk⟩

/-- Two sections with headers. -/
def headersText : String :=
  "[timeouts]\nrequest_secs = 9223372036854775807\n[handshake]\nenabled = false\n"

/-- One of them as an array, and a key that is not known in the other. -/
def arrayText : String :=
  "handshake = [false]\n[timeouts]\nretries = [1, 2]\nrequest_secs = 9223372036854775807\n"

theorem reworded_headersText : Reworded headersText arrayText := by
  refine ⟨⟨[], [⟨⟨[], "timeouts"⟩, false, [(⟨[], "request_secs"⟩, .integer 9223372036854775807)]⟩,
      ⟨⟨[], "handshake"⟩, false, [(⟨[], "enabled"⟩, .boolean false)]⟩]⟩,
    ⟨[(⟨[], "handshake"⟩, .array [.boolean false])], [⟨⟨[], "timeouts"⟩, false,
      [(⟨[], "retries"⟩, .array [.integer 1, .integer 2]),
        (⟨[], "request_secs"⟩, .integer 9223372036854775807)]⟩]⟩, by cbv, by cbv, ?_⟩
  let timeouts : Section :=
    ⟨⟨[], "timeouts"⟩, false, [(⟨[], "request_secs"⟩, .integer 9223372036854775807)]⟩
  have hswapped : Rewords ⟨[], [timeouts, ⟨⟨[], "handshake"⟩, false, [(⟨[], "enabled"⟩, .boolean false)]⟩]⟩
      ⟨[], [⟨⟨[], "handshake"⟩, false, [(⟨[], "enabled"⟩, .boolean false)]⟩, timeouts]⟩ :=
    .sections (List.Perm.swap ..)
  have htables : ∀ q ∈ [((⟨[], "enabled"⟩ : Key), Value.boolean false)], ∀ p,
      q.2.fact? p ≠ some .tables := by
    intro q hq p
    obtain rfl := List.mem_singleton.mp hq
    exact fact?_ne_tables_of_plain rfl p
  have hassign : Table.assignAll ⟨.inline, []⟩ [(⟨[], "enabled"⟩, .boolean false)] =
    some ⟨.inline, [("enabled", .boolean false)]⟩ := rfl
  have hinline : Rewords
      ⟨[], [⟨⟨[], "handshake"⟩, false, [(⟨[], "enabled"⟩, .boolean false)]⟩, timeouts]⟩
      ⟨[(⟨[], "handshake"⟩, .table .inline [("enabled", .boolean false)])], [timeouts]⟩ :=
    .inline hassign htables
  have hmem : ("handshake", [("enabled", Kind.boolean), ("accept_alphabet", .alphabet)]) ∈ layout := by
    simp [layout]
  have harray : Rewords
      ⟨[(⟨[], "handshake"⟩, .table .inline [("enabled", .boolean false)])], [timeouts]⟩
      ⟨[(⟨[], "handshake"⟩, .array [.boolean false])], [timeouts]⟩ :=
    .array hmem (by decide)
  have hunknown : Unknown ["timeouts", "retries"] := by
    unfold Unknown
    decide
  have hadded : Rewords ⟨[(⟨[], "handshake"⟩, .array [.boolean false])], [timeouts]⟩
      ⟨[(⟨[], "handshake"⟩, .array [.boolean false])], [{ timeouts with
        pairs := (⟨[], "retries"⟩, .array [.integer 1, .integer 2]) :: timeouts.pairs }]⟩ :=
    .addPairOfSection hunknown
  exact (((Relation.EqvGen.rel _ _ hswapped).trans _ _ _ (.rel _ _ hinline)).trans _ _ _
    (.rel _ _ harray)).trans _ _ _ (.rel _ _ hadded)

theorem overlay_of_headersText : ∃ root root',
    Document.read? headersText = some root ∧ Document.read? arrayText = some root' ∧ Fits root ∧
      Reworded headersText arrayText ∧
      overlay root = ⟨{}, { requestSecs := 9223372036854775807 }, { enabled := false }, {}⟩ ∧
      ofDocument root' = .ok (overlay root) := by
  have hread : Document.read? headersText = some
      [("timeouts", .table .header [("request_secs", .integer 9223372036854775807)]),
        ("handshake", .table .header [("enabled", .boolean false)])] := by cbv
  have hread' : Document.read? arrayText = some
      [("handshake", .array [.boolean false]),
        ("timeouts", .table .header [("retries", .array [.integer 1, .integer 2]),
          ("request_secs", .integer 9223372036854775807)])] := by cbv
  have hfits : Fits [("timeouts", .table .header [("request_secs", .integer 9223372036854775807)]),
      ("handshake", .table .header [("enabled", .boolean false)])] := by
    decide
  obtain ⟨-, -, -, -, hreworded⟩ := overlay_of_document hread hfits
  exact ⟨_, _, hread, hread', hfits, reworded_headersText, rfl,
    (hreworded hread' reworded_headersText).2.1⟩

end Settings

end UpgradeBridge
