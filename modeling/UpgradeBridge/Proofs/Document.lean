/-
What the table of a document holds, told by the lines of the document.

A table is looked at by its facts: what kind of thing stands at the end of a path
of keys, and which scalar or array it is. A line says some facts, whatever lines
stand around it, and every step in building the table adds what its line says and
takes nothing back (`Adds`). So a fact is in the table exactly if a line says it;
only where an array of tables stands in the way nothing further is told.
-/
import UpgradeBridge.Toml.Document

namespace UpgradeBridge.Toml

/-! ## Keys -/

namespace Entries

variable {entries : Entries} {k key : String} {v : Value}

theorem get?_cons (e : String × Value) (rest : Entries) :
    get? (e :: rest) k = if e.1 = k then some e.2 else get? rest k := by
  by_cases h : e.1 = k <;> simp [get?, h]

theorem get?_append (more : Entries) :
    get? (entries ++ more) k = (entries.get? k).or (more.get? k) := by
  simp only [get?, List.find?_append]
  cases entries.find? fun e => e.1 == k <;> rfl

theorem replace_cons (e : String × Value) (rest : Entries) :
    replace (e :: rest) key v = (if e.1 = key then (key, v) else e) :: replace rest key v := by
  by_cases h : e.1 = key <;> simp [replace, h]

theorem get?_replace_of_ne (h : k ≠ key) : (entries.replace key v).get? k = entries.get? k := by
  induction entries with
  | nil => rfl
  | cons e rest ih =>
    rw [replace_cons, get?_cons, get?_cons, ih]
    by_cases hkey : e.1 = key
    · have hk : e.1 ≠ k := fun hk => h (hk.symm.trans hkey)
      rw [if_pos hkey, if_neg (Ne.symm h), if_neg hk]
    · rw [if_neg hkey]

theorem get?_replace (h : (entries.get? key).isSome) : (entries.replace key v).get? key = some v := by
  induction entries with
  | nil => cases h
  | cons e rest ih =>
    rw [get?_cons] at h
    rw [replace_cons, get?_cons]
    by_cases hkey : e.1 = key
    · rw [if_pos hkey, if_pos rfl]
    · rw [if_neg hkey] at h
      rw [if_neg hkey, if_neg hkey, ih h]

theorem get?_erase (entries : Entries) : (entries.erase key).get? key = none := by
  simp only [erase, get?, Option.map_eq_none_iff, List.find?_eq_none, List.mem_filter]
  rintro e ⟨-, he⟩
  simpa using he

theorem get?_erase_of_ne (h : k ≠ key) : (entries.erase key).get? k = entries.get? k := by
  simp only [erase, get?, List.find?_filter]
  congr 2
  funext e
  by_cases hk : e.1 = k
  · simp [hk, h]
  · simp [hk]

end Entries

/-! ## Facts -/

/-- What stands at a place of a document. -/
inductive Fact
  | table
  /-- Tables that headers in double brackets opened. -/
  | tables
  /-- A scalar or an array. -/
  | plain (value : Value)

namespace Value

/-- The value at the end of a path of keys. -/
def at? : List String → Value → Option Value
  | [], v => some v
  | k :: path, .table _ entries => (Entries.get? entries k).bind (at? path)
  | _ :: _, _ => none

/-- What a value is. -/
def fact : Value → Fact
  | .table _ _ => .table
  | .tables _ => .tables
  | v => .plain v

/-- What stands at the end of a path of keys. -/
def fact? (v : Value) (path : List String) : Option Fact :=
  (v.at? path).map fact

theorem fact?_nil (v : Value) : v.fact? [] = some v.fact := rfl

theorem fact?_table_cons (origin : Origin) (entries : Entries) (k : String) (path : List String) :
    (table origin entries).fact? (k :: path) = (entries.get? k).bind (·.fact? path) := by
  simp only [fact?, at?]
  cases entries.get? k <;> rfl

theorem fact?_table (origin origin' : Origin) (entries : Entries) :
    (table origin entries).fact? = (table origin' entries).fact? := by
  funext path
  cases path with
  | nil => rfl
  | cons k path => rw [fact?_table_cons, fact?_table_cons]

theorem fact?_tables (elements elements' : List Entries) :
    (tables elements).fact? = (tables elements').fact? := by
  funext path
  cases path <;> rfl

end Value

/-- What stands at the end of a path of keys. -/
def Table.fact? (t : Table) (path : List String) : Option Fact :=
  t.value.fact? path

namespace Table

theorem fact?_cons (t : Table) (k : String) (path : List String) :
    t.fact? (k :: path) = (t.entries.get? k).bind (·.fact? path) :=
  Value.fact?_table_cons t.origin t.entries k path

theorem fact?_empty {origin : Origin} {path : List String} {f : Fact}
    (h : fact? ⟨origin, []⟩ path = some f) : path = [] ∧ f = .table := by
  cases path with
  | nil =>
    cases h
    exact ⟨rfl, rfl⟩
  | cons k path =>
    rw [fact?_cons] at h
    cases h

end Table

/-! ## Adding facts -/

/-- A fact holds, or an array of tables on the way to it hides it. -/
def Told (facts : List String → Option Fact) (p : List String) (f : Fact) : Prop :=
  facts p = some f ∨ ∃ q, q <+: p ∧ facts q = some .tables

/-- Some facts are added to others, and none is taken back. -/
structure Adds (before after : List String → Option Fact) (tells : List String → Fact → Prop) :
    Prop where
  new : ∀ {p f}, after p = some f → before p = some f ∨ tells p f
  kept : ∀ {p f}, before p = some f → after p = some f
  said : ∀ {p f}, tells p f → Told after p f

namespace Adds

variable {facts facts' facts'' : List String → Option Fact} {tells tells' : List String → Fact → Prop}

theorem refl (facts : List String → Option Fact) : Adds facts facts fun _ _ => False :=
  ⟨.inl, id, False.elim⟩

theorem trans (h : Adds facts facts' tells) (h' : Adds facts' facts'' tells') :
    Adds facts facts'' fun p f => tells p f ∨ tells' p f where
  new hafter := by
    rcases h'.new hafter with hmid | hsaid
    · rcases h.new hmid with hbefore | hsaid
      · exact .inl hbefore
      · exact .inr (.inl hsaid)
    · exact .inr (.inr hsaid)
  kept hbefore := h'.kept (h.kept hbefore)
  said htells := by
    rcases htells with htells | htells
    · exact (h.said htells).imp h'.kept fun ⟨q, hq, htables⟩ => ⟨q, hq, h'.kept htables⟩
    · exact h'.said htells

theorem congr (h : Adds facts facts' tells) (hto : ∀ {p f}, tells p f → tells' p f)
    (hfrom : ∀ {p f}, tells' p f → tells p f ∨ Told facts' p f) : Adds facts facts' tells' where
  new hafter := (h.new hafter).imp_right hto
  kept := h.kept
  said htells := (hfrom htells).elim h.said id

theorem of_none (facts : List String → Option Fact) :
    Adds (fun _ => none) facts fun p f => facts p = some f :=
  ⟨.inr, nofun, .inl⟩

/-- What is added to the empty table, with the table itself. -/
theorem of_empty {origin : Origin} (h : Adds (Table.fact? ⟨origin, []⟩) facts tells)
    (htable : tells [] .table) : Adds (fun _ => none) facts tells where
  new hafter := by
    rcases h.new hafter with hempty | htells
    · obtain ⟨rfl, rfl⟩ := Table.fact?_empty hempty
      exact .inr htable
    · exact .inr htells
  kept := nofun
  said := h.said

/-- What is said where an array of tables stands is hidden. -/
theorem hidden {facts : List String → Option Fact} (tells : List String → Fact → Prop)
    (h : facts [] = some .tables) : Adds facts facts tells :=
  ⟨.inl, id, fun _ => .inr ⟨[], List.nil_prefix, h⟩⟩

end Adds

/-- What is said at the end of a path, with the tables that the path passes through. -/
def Below (path : List String) (tells : List String → Fact → Prop) (p : List String) (f : Fact) :
    Prop :=
  (p <+: path ∧ f = .table) ∨ ∃ r, p = path ++ r ∧ tells r f

theorem below_cons {key : String} {path : List String} {tells : List String → Fact → Prop}
    {p : List String} {f : Fact} : Below (key :: path) tells p f ↔
      (p = [] ∧ f = .table) ∨ ∃ r, p = key :: r ∧ Below path tells r f := by
  cases p with
  | nil => simp [Below]
  | cons k p =>
    simp only [Below, List.cons_prefix_cons, List.cons_append, List.cons.injEq, reduceCtorEq,
      false_and, false_or]
    constructor
    · rintro (⟨⟨rfl, hp⟩, hf⟩ | ⟨r, ⟨rfl, hp⟩, hr⟩)
      · exact ⟨p, ⟨rfl, rfl⟩, .inl ⟨hp, hf⟩⟩
      · exact ⟨p, ⟨rfl, rfl⟩, .inr ⟨r, hp, hr⟩⟩
    · rintro ⟨_, ⟨rfl, rfl⟩, ⟨hp, hf⟩ | ⟨r, hp, hr⟩⟩
      · exact .inl ⟨⟨rfl, hp⟩, hf⟩
      · exact .inr ⟨r, ⟨rfl, hp⟩, hr⟩

theorem below_named {key : String} {path : List String} {tells : List String → Fact → Prop}
    {p : List String} {f : Fact} : Below path (fun p f => ∃ r, p = key :: r ∧ tells r f) p f ↔
      (p <+: path ∧ f = .table) ∨ ∃ r, p = path ++ [key] ++ r ∧ tells r f := by
  refine or_congr_right ⟨?_, ?_⟩
  · rintro ⟨_, rfl, r, rfl, htells⟩
    exact ⟨r, by simp, htells⟩
  · rintro ⟨r, rfl, htells⟩
    exact ⟨key :: r, by simp, r, rfl, htells⟩

namespace Table

variable {t t' : Table} {key : String} {v v' : Value} {tells tells' : List String → Fact → Prop}

/-- Another value of one key adds to the table what it holds beyond the value before. -/
theorem adds_of_get? (hothers : ∀ k, k ≠ key → t'.entries.get? k = t.entries.get? k)
    (hself : t'.entries.get? key = some v)
    (hvalue : Adds (fun p => (t.entries.get? key).bind (·.fact? p)) v.fact? tells) :
    Adds t.fact? t'.fact? fun p f => ∃ r, p = key :: r ∧ tells r f := by
  have hfact : ∀ p, t'.fact? (key :: p) = v.fact? p := by
    intro p
    rw [fact?_cons, hself]
    rfl
  refine ⟨fun {p f} hafter => ?_, fun {p f} hbefore => ?_, ?_⟩
  · cases p with
    | nil => exact .inl hafter
    | cons k p =>
      by_cases hk : k = key
      · subst hk
        rw [hfact] at hafter
        rw [fact?_cons]
        exact (hvalue.new hafter).imp_right fun htells => ⟨p, rfl, htells⟩
      · rw [fact?_cons, hothers k hk, ← fact?_cons] at hafter
        exact .inl hafter
  · cases p with
    | nil => exact hbefore
    | cons k p =>
      by_cases hk : k = key
      · subst hk
        rw [fact?_cons] at hbefore
        rw [hfact]
        exact hvalue.kept hbefore
      · rw [fact?_cons, hothers k hk, ← fact?_cons]
        exact hbefore
  · rintro p f ⟨r, rfl, htells⟩
    rcases hvalue.said htells with hr | ⟨q, hq, htables⟩
    · exact .inl ((hfact r).trans hr)
    · exact .inr ⟨key :: q, List.cons_prefix_cons.mpr ⟨rfl, hq⟩, (hfact q).trans htables⟩

theorem adds_push (hnone : t.entries.get? key = none) (hvalue : Adds (fun _ => none) v.fact? tells) :
    Adds t.fact? (t.push key v).fact? fun p f => ∃ r, p = key :: r ∧ tells r f := by
  refine adds_of_get? (fun k hk => ?_) (v := v) ?_ ?_
  · rw [push, Entries.get?_append, Entries.get?_cons, if_neg (Ne.symm hk)]
    exact Option.or_none
  · rw [push, Entries.get?_append, hnone, Entries.get?_cons, if_pos rfl]
    rfl
  · rw [hnone]
    exact hvalue

theorem adds_replace (hget : t.entries.get? key = some v) (hvalue : Adds v.fact? v'.fact? tells) :
    Adds t.fact? (fact? { t with entries := t.entries.replace key v' })
      fun p f => ∃ r, p = key :: r ∧ tells r f := by
  refine adds_of_get? (fun k hk => Entries.get?_replace_of_ne hk) (v := v') ?_ ?_
  · exact Entries.get?_replace (by rw [hget]; rfl)
  · rw [hget]
    exact hvalue

/-- Work at the end of a path adds there what it adds to a table of its own. -/
theorem adds_within {dotted : Bool} {work : Table → Option Table}
    (hwork : ∀ {child child'}, work child = some child' → Adds child.fact? child'.fact? tells) :
    ∀ {path : List String} {t t' : Table}, within dotted work path t = some t' →
      Adds t.fact? t'.fact? (Below path tells)
  | [], t, t', h => by
    refine (hwork h).congr (fun htells => .inr ⟨_, rfl, htells⟩) ?_
    rintro p f (⟨hp, rfl⟩ | ⟨r, rfl, htells⟩)
    · obtain rfl := List.prefix_nil.mp hp
      exact .inr (.inl rfl)
    · exact .inl htells
  | key :: path, t, t', h => by
    have hbelow : Adds t.fact? t'.fact? fun p f => ∃ r, p = key :: r ∧ Below path tells r f := by
      rw [within] at h
      split at h
      · next hget =>
        obtain ⟨child, hchild, ht'⟩ := Option.bind_eq_some_iff.mp h
        cases ht'
        exact adds_push hget ((adds_within hwork hchild).of_empty (.inl ⟨List.nil_prefix, rfl⟩))
      · next origin entries hget =>
        split at h
        · obtain ⟨child, hchild, ht'⟩ := Option.bind_eq_some_iff.mp h
          cases ht'
          exact adds_replace hget (adds_within hwork hchild)
        · cases h
      · next elements hget =>
        split at h
        · obtain ⟨child, hchild, ht'⟩ := Option.bind_eq_some_iff.mp h
          cases ht'
          refine adds_replace hget ?_
          have hhere : (Value.tables elements).fact? [] = some .tables := rfl
          rw [Value.fact?_tables (elements.dropLast ++ _) elements]
          exact Adds.hidden _ hhere
        · cases h
      · cases h
    refine hbelow.congr (fun htells => below_cons.mpr (.inr htells)) fun htells => ?_
    rcases below_cons.mp htells with ⟨rfl, rfl⟩ | htells
    · exact .inr (.inl rfl)
    · exact .inl htells

end Table

/-! ## Lines -/

/-- All parts of a key. -/
def Key.full (key : Key) : List String :=
  key.path ++ [key.name]

/-- What a key and its value say. -/
def Key.Tells (key : Key) (v : Value) : List String → Fact → Prop :=
  Below key.path fun p f => ∃ r, p = key.name :: r ∧ v.fact? r = some f

/-- What some pairs say. -/
def PairsTell (pairs : List (Key × Value)) (p : List String) (f : Fact) : Prop :=
  ∃ pair ∈ pairs, pair.1.Tells pair.2 p f

namespace Section

/-- The kind of thing that a header opens. -/
def fact (s : Section) : Fact :=
  if s.repeated then .tables else .table

/-- What a section says of what its header opens. Nothing is told of the pairs below a header in
double brackets. -/
def Opens (s : Section) (p : List String) (f : Fact) : Prop :=
  (p = [] ∧ f = s.fact) ∨ (s.repeated = false ∧ PairsTell s.pairs p f)

/-- What a section says within the table that it is put into. -/
def Places (s : Section) (p : List String) (f : Fact) : Prop :=
  ∃ r, p = s.key.name :: r ∧ s.Opens r f

/-- What a section says. -/
def Tells (s : Section) : List String → Fact → Prop :=
  Below s.key.path s.Places

end Section

section

variable {k : Key} {v : Value} {s : Section} {p : List String} {f : Fact}

theorem Key.tells_iff : k.Tells v p f ↔
    (p <+: k.path ∧ f = .table) ∨ ∃ r, p = k.full ++ r ∧ v.fact? r = some f :=
  below_named

theorem Section.tells_iff : s.Tells p f ↔
    (p <+: s.key.path ∧ f = .table) ∨ ∃ r, p = s.key.full ++ r ∧ s.Opens r f :=
  below_named

theorem Key.tells_bounded (h : k.Tells v p f) : (p <+: k.full ∧ f = .table) ∨ k.full <+: p := by
  rcases Key.tells_iff.mp h with ⟨hp, hf⟩ | ⟨r, rfl, -⟩
  · exact .inl ⟨hp.trans (List.prefix_append ..), hf⟩
  · exact .inr (List.prefix_append ..)

theorem Section.tells_bounded (h : s.Tells p f) :
    (p <+: s.key.full ∧ f = .table) ∨ s.key.full <+: p := by
  rcases Section.tells_iff.mp h with ⟨hp, hf⟩ | ⟨r, rfl, -⟩
  · exact .inl ⟨hp.trans (List.prefix_append ..), hf⟩
  · exact .inr (List.prefix_append ..)

theorem Section.tells_congr {qs : List (Key × Value)}
    (h : ∀ {p f}, PairsTell s.pairs p f ↔ PairsTell qs p f) :
    s.Tells p f ↔ Section.Tells { s with pairs := qs } p f := by
  simp only [Section.tells_iff, Section.Opens, h]
  rfl

end

theorem Table.adds_assign {t t' : Table} {key : Key} {v : Value} (h : t.assign key v = some t') :
    Adds t.fact? t'.fact? (key.Tells v) := by
  refine adds_within (fun {child child'} hwork => ?_) h
  split at hwork
  · rw [define] at hwork
    split at hwork
    · next hnone =>
      cases hwork
      exact adds_push hnone (.of_none _)
    · cases hwork
  · cases hwork

theorem Table.adds_assignAll {pairs : List (Key × Value)} : ∀ {t t' : Table},
    t.assignAll pairs = some t' → Adds t.fact? t'.fact? (PairsTell pairs) := by
  induction pairs with
  | nil =>
    intro t t' h
    cases h
    exact (Adds.refl _).congr False.elim fun ⟨_, hmem, _⟩ => absurd hmem (List.not_mem_nil)
  | cons pair pairs ih =>
    intro t t' h
    obtain ⟨mid, hpair, hrest⟩ := Option.bind_eq_some_iff.mp h
    refine ((adds_assign hpair).trans (ih hrest)).congr ?_ ?_
    · rintro p f (htells | ⟨pair', hmem, htells⟩)
      · exact ⟨pair, List.mem_cons_self .., htells⟩
      · exact ⟨pair', List.mem_cons_of_mem _ hmem, htells⟩
    · rintro p f ⟨pair', hmem, htells⟩
      rcases List.mem_cons.mp hmem with rfl | hmem
      · exact .inl (.inl htells)
      · exact .inl (.inr ⟨pair', hmem, htells⟩)

/-- What pairs without arrays of tables give an empty table is all that they say. -/
theorem Table.fact?_assignAll {origin : Origin} {pairs : List (Key × Value)} {t : Table}
    (ht : assignAll ⟨origin, []⟩ pairs = some t)
    (htables : ∀ q ∈ pairs, ∀ p, q.2.fact? p ≠ some .tables) {p : List String} {f : Fact} :
    t.fact? p = some f ↔ (p = [] ∧ f = .table) ∨ PairsTell pairs p f := by
  have hadds := adds_assignAll ht
  have hnone : ∀ q, t.fact? q ≠ some .tables := by
    intro q hq
    rcases hadds.new hq with hempty | ⟨pair, hpair, htells⟩
    · cases (fact?_empty hempty).2
    · rcases Key.tells_iff.mp htells with ⟨-, hf⟩ | ⟨r, -, hr⟩
      · cases hf
      · exact htables pair hpair r hr
  constructor
  · intro hp
    exact (hadds.new hp).imp_left fact?_empty
  · rintro (⟨rfl, rfl⟩ | htells)
    · rfl
    · exact (hadds.said htells).resolve_right fun ⟨q, _, hq⟩ => hnone q hq

namespace Section

variable {s : Section} {t parent parent' root root' : Table}

theorem opens_of_repeated (h : s.repeated = true) {p : List String} {f : Fact} :
    s.Opens p f ↔ p = [] ∧ f = .tables := by
  simp [Opens, fact, h]

theorem opens_of_single (h : s.repeated = false) {p : List String} {f : Fact} :
    s.Opens p f ↔ (p = [] ∧ f = .table) ∨ PairsTell s.pairs p f := by
  simp [Opens, fact, h]

theorem adds_pairs {origin : Origin} {entries : Entries} (hrepeated : s.repeated = false)
    (ht : Table.assignAll ⟨.header, entries⟩ s.pairs = some t) :
    Adds (Value.table origin entries).fact? t.value.fact? s.Opens := by
  rw [Value.fact?_table origin .header]
  refine (Table.adds_assignAll ht).congr
    (fun htells => (opens_of_single hrepeated).mpr (.inr htells)) fun hopens => ?_
  rcases (opens_of_single hrepeated).mp hopens with ⟨rfl, rfl⟩ | htells
  · exact .inr (.inl rfl)
  · exact .inl htells

theorem adds_element (hrepeated : s.repeated = true) (elements : List Entries) :
    Adds (fun _ => none) (Value.tables elements).fact? s.Opens := by
  refine (Adds.of_none _).congr (fun {p f} hp => ?_) fun hopens => ?_
  · rw [opens_of_repeated hrepeated]
    cases p with
    | nil =>
      cases hp
      exact ⟨rfl, rfl⟩
    | cons k p => cases hp
  · obtain ⟨rfl, rfl⟩ := (opens_of_repeated hrepeated).mp hopens
    exact .inl rfl

theorem adds_place (h : s.place parent = some parent') :
    Adds parent.fact? parent'.fact? s.Places := by
  rw [place] at h
  split at h
  · next hnone hrepeated =>
    obtain ⟨t, ht, hparent⟩ := Option.bind_eq_some_iff.mp h
    cases hparent
    have htable : s.Opens [] .table := (opens_of_single hrepeated).mpr (.inl ⟨rfl, rfl⟩)
    have hpairs : Adds (Value.table .header []).fact? t.value.fact? s.Opens :=
      adds_pairs hrepeated ht
    exact Table.adds_push hnone (Adds.of_empty hpairs htable)
  · next entries hget hrepeated =>
    obtain ⟨t, ht, hparent⟩ := Option.bind_eq_some_iff.mp h
    cases hparent
    refine Table.adds_of_get? (v := t.value) (fun k hk => ?_) ?_ ?_
    · rw [Table.push, Entries.get?_append, Entries.get?_erase_of_ne hk, Entries.get?_cons,
        if_neg (Ne.symm hk)]
      exact Option.or_none
    · rw [Table.push, Entries.get?_append, Entries.get?_erase, Entries.get?_cons, if_pos rfl]
      rfl
    · rw [hget]
      exact adds_pairs hrepeated ht
  · next hnone hrepeated =>
    obtain ⟨t, ht, hparent⟩ := Option.bind_eq_some_iff.mp h
    cases hparent
    exact Table.adds_push hnone (adds_element hrepeated _)
  · next elements hget hrepeated =>
    obtain ⟨t, ht, hparent⟩ := Option.bind_eq_some_iff.mp h
    cases hparent
    refine Table.adds_replace hget ?_
    rw [Value.fact?_tables (elements ++ _) elements]
    refine (Adds.refl _).congr False.elim fun hopens => ?_
    obtain ⟨rfl, rfl⟩ := (opens_of_repeated hrepeated).mp hopens
    exact .inr (.inl rfl)
  · cases h

theorem adds_add (h : add root s = some root') : Adds root.fact? root'.fact? s.Tells :=
  Table.adds_within adds_place h

theorem adds_addAll {ss : List Section} : ∀ {root root' : Table},
    ss.foldlM add root = some root' → Adds root.fact? root'.fact? fun p f => ∃ s ∈ ss, s.Tells p f := by
  induction ss with
  | nil =>
    intro root root' h
    cases h
    exact (Adds.refl _).congr False.elim fun ⟨_, hmem, _⟩ => absurd hmem List.not_mem_nil
  | cons s ss ih =>
    intro root root' h
    obtain ⟨mid, hfirst, hrest⟩ := Option.bind_eq_some_iff.mp h
    refine ((adds_add hfirst).trans (ih hrest)).congr ?_ ?_
    · rintro p f (htells | ⟨s', hmem, htells⟩)
      · exact ⟨s, List.mem_cons_self .., htells⟩
      · exact ⟨s', List.mem_cons_of_mem _ hmem, htells⟩
    · rintro p f ⟨s', hmem, htells⟩
      rcases List.mem_cons.mp hmem with rfl | hmem
      · exact .inl (.inl htells)
      · exact .inl (.inr ⟨s', hmem, htells⟩)

end Section

/-! ## Documents -/

/-- The parts of a document: the pairs in front of the first header, and the sections. -/
structure Parts where
  pairs : List (Key × Value)
  sections : List Section

namespace Parts

/-- The root table that the parts build. -/
def assemble? (d : Parts) : Option Table := do
  let root ← Table.assignAll ⟨.header, []⟩ d.pairs
  d.sections.foldlM Section.add root

/-- What the lines of a document say. -/
def Tells (d : Parts) (p : List String) (f : Fact) : Prop :=
  PairsTell d.pairs p f ∨ ∃ s ∈ d.sections, s.Tells p f

section

variable {k : Key} {v : Value} {s : Section} {ps : List (Key × Value)} {ss : List Section}
  {p : List String} {f : Fact}

theorem tells_cons_pair :
    Tells ⟨(k, v) :: ps, ss⟩ p f ↔ k.Tells v p f ∨ Tells ⟨ps, ss⟩ p f := by
  simp [Tells, PairsTell, or_assoc]

theorem tells_cons_section :
    Tells ⟨ps, s :: ss⟩ p f ↔ s.Tells p f ∨ Tells ⟨ps, ss⟩ p f := by
  simp only [Tells, List.mem_cons, exists_eq_or_imp]
  rw [or_left_comm]

end

/-- **A document holds what its lines say.** Whatever stands at the end of a path of keys in the table
that a document builds, a line of it says so. And whatever a line says stands there, or an array of
tables stands on the way. -/
theorem fact_iff_tells {d : Parts} {root : Table} (h : d.assemble? = some root) {k : String}
    {p : List String} {f : Fact} :
    (root.fact? (k :: p) = some f → d.Tells (k :: p) f) ∧
      (d.Tells (k :: p) f → Told root.fact? (k :: p) f) := by
  obtain ⟨mid, hpairs, hsections⟩ := Option.bind_eq_some_iff.mp h
  have hadds := (Table.adds_assignAll hpairs).trans (Section.adds_addAll hsections)
  refine ⟨fun hfact => ?_, hadds.said⟩
  rcases hadds.new hfact with hempty | htells
  · cases (Table.fact?_empty hempty).1
  · exact htells

end Parts

namespace Document

/-- The parts of a text. -/
def parts? (text : String) : Option Parts := do
  let cs := match text.toList with
    | '\ufeff' :: rest => rest
    | cs => cs
  let ls ← lines (cs.length + 1) cs
  some ⟨(sections ls).1, (sections ls).2⟩

theorem read?_eq (text : String) :
    read? text = (parts? text).bind fun d => d.assemble?.map Table.entries := by
  have hbuild : ∀ ls, (build? ls).map Table.entries =
      (Parts.assemble? ⟨(sections ls).1, (sections ls).2⟩).map Table.entries := fun _ => rfl
  simp only [read?, parts?, Option.bind_eq_bind, Option.bind_assoc, Option.bind_some, ← hbuild]
  refine congr (congrArg Option.bind rfl) (funext fun ls => ?_)
  cases build? ls <;> rfl

end Document

end UpgradeBridge.Toml
