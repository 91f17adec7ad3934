/-
The texts that spell socket addresses, told without a reader, and that the reader
takes exactly these (`ofString?_eq_some_iff`).

A reader takes the longest run of digits that there is, so what it takes and what
may follow are told together: each reader of digits has one equivalence, in which
no further digit follows. The groups of an IPv6 address are read until no further
one can be; `Ends` says what may follow them.
-/
import Mathlib
import UpgradeBridge.SocketAddress

namespace UpgradeBridge

namespace SocketAddress

/-! ## Spellings -/

/-- Digits of a base that spell a number. -/
def Numeral (base : Nat) (cs : List Char) (n : Nat) : Prop :=
  cs ≠ [] ∧ ∃ ds, List.Forall₂ (fun c d => digit? base c = some d) cs ds ∧ ofDigits base ds = n

/-- A number of an IPv4 address: up to three digits, of which a zero stands alone. -/
structure Octet (cs : List Char) (v : UInt8) : Prop where
  numeral : Numeral 10 cs v.toNat
  short : cs.length ≤ 3
  alone : cs.head? = some '0' → cs.length = 1

/-- An IPv4 address: four numbers with points between them. -/
inductive Quad : List Char → Ipv4 → Prop
  | intro {a b c d : List Char} {host : Ipv4} : Octet a host.a → Octet b host.b → Octet c host.c →
      Octet d host.d → Quad (a ++ '.' :: (b ++ '.' :: (c ++ '.' :: d))) host

/-- A group of an IPv6 address: up to four hexadecimal digits. -/
structure Group (cs : List Char) (g : UInt16) : Prop where
  numeral : Numeral 16 cs g.toNat
  short : cs.length ≤ 4

/-- What stands before a group, unless it is the first. -/
def lead : (isFirst : Bool) → List Char
  | true => []
  | false => [':']

/-- Groups with colons between them, of which the last two may be an embedded IPv4 address. -/
inductive Groups : (isFirst embedded : Bool) → List Char → List UInt16 → Prop
  | none {isFirst} : Groups isFirst false [] []
  | embedded {isFirst cs host} : Quad cs host →
      Groups isFirst true (lead isFirst ++ cs) (Ipv4.asGroups host)
  | group {isFirst embedded cs g rest gs} : Group cs g → Groups false embedded rest gs →
      Groups isFirst embedded (lead isFirst ++ (cs ++ rest)) (g :: gs)

/-- An IPv6 address: eight groups, or fewer with two colons for the zeros between some. -/
inductive Hextets : List Char → Ipv6 → Prop
  | full {embedded cs gs} : Groups true embedded cs gs → gs.length = 8 → Hextets cs ⟨gs⟩
  | short {embedded front back gs gs'} : Groups true false front gs → Groups true embedded back gs' →
      gs.length + gs'.length ≤ 7 → Hextets (front ++ ':' :: ':' :: back)
        ⟨gs ++ List.replicate (8 - gs.length - gs'.length) 0 ++ gs'⟩

/-- The number of a scope after a percent sign, or nothing for 0. -/
inductive Scoped : List Char → UInt32 → Prop
  | none : Scoped [] 0
  | some {ds scope} : Numeral 10 ds scope.toNat → Scoped ('%' :: ds) scope

/-- A text that is a socket address. -/
inductive Spells : List Char → SocketAddress → Prop
  | v4 {cs host ds port} : Quad cs host → Numeral 10 ds port.toNat →
      Spells (cs ++ ':' :: ds) (.v4 host port)
  | v6 {cs host ss scope ds port} : Hextets cs host → Scoped ss scope → Numeral 10 ds port.toNat →
      Spells ('[' :: (cs ++ (ss ++ ']' :: ':' :: ds))) (.v6 host scope port)

/-! ## Numbers -/

/-- No digit of a base stands first. -/
def NoDigit (base : Nat) (cs : List Char) : Prop :=
  ∀ c ∈ cs.head?, digit? base c = none

theorem noDigit_cons {base : Nat} {c : Char} {cs : List Char} :
    NoDigit base (c :: cs) ↔ digit? base c = none := by
  simp [NoDigit]

theorem noDigit_nil (base : Nat) : NoDigit base [] := by
  simp [NoDigit]

theorem digit?_lt {base d : Nat} {c : Char} (h : digit? base c = some d) : d < base := by
  simpa using (Option.filter_eq_some_iff.mp h).2

theorem ofDigits_lt {base : Nat} {ds : List Nat} (h : ∀ d ∈ ds, d < base) :
    ofDigits base ds < base ^ ds.length := by
  induction ds using List.reverseRecOn with
  | nil => simp [ofDigits]
  | append_singleton ds d ih =>
    have hd : d < base := h d (by simp)
    have hds : ofDigits base ds + 1 ≤ base ^ ds.length := ih fun d hd => h d (by simp [hd])
    have happend : ofDigits base (ds ++ [d]) = base * ofDigits base ds + d := by simp [ofDigits]
    rw [happend, List.length_append, List.length_singleton, pow_succ, mul_comm _ base]
    calc base * ofDigits base ds + d < base * (ofDigits base ds + 1) := by rw [mul_add]; omega
      _ ≤ base * base ^ ds.length := Nat.mul_le_mul_left _ hds

theorem Numeral.lt {base n : Nat} {cs : List Char} (h : Numeral base cs n) : n < base ^ cs.length := by
  obtain ⟨-, ds, hds, rfl⟩ := h
  rw [hds.length_eq]
  refine ofDigits_lt fun d hd => ?_
  obtain ⟨i, hi, rfl⟩ := List.mem_iff_getElem.mp hd
  exact digit?_lt (hds.get (by rw [hds.length_eq]; exact hi) hi)

theorem digits_append {base : Nat} {cs : List Char} {ds : List Nat} {rest : List Char}
    (h : List.Forall₂ (fun c d => digit? base c = some d) cs ds) (hrest : NoDigit base rest) :
    ∀ count value, digits base count value (cs ++ rest) =
      (count + cs.length, ds.foldl (fun n d => base * n + d) value, rest) := by
  induction h with
  | nil =>
    intro count value
    cases rest with
    | nil => rfl
    | cons c rest => simp [digits, noDigit_cons.mp hrest]
  | @cons c d cs ds hc _ ih =>
    intro count value
    simp only [List.cons_append, digits, hc, ih, List.length_cons, List.foldl_cons, mul_comm value]
    rw [add_assoc, add_comm 1]

/-- The longest run of digits. -/
theorem exists_digits (base : Nat) (cs : List Char) : ∃ front ds rest, cs = front ++ rest ∧
    List.Forall₂ (fun c d => digit? base c = some d) front ds ∧ NoDigit base rest := by
  induction cs with
  | nil => exact ⟨[], [], [], rfl, .nil, noDigit_nil base⟩
  | cons c cs ih =>
    cases hc : digit? base c with
    | none => exact ⟨[], [], c :: cs, rfl, .nil, noDigit_cons.mpr hc⟩
    | some d =>
      obtain ⟨front, ds, rest, rfl, hds, hrest⟩ := ih
      exact ⟨c :: front, d :: ds, rest, rfl, .cons hc hds, hrest⟩

theorem digits_eq {base : Nat} {cs : List Char} {ds : List Nat} {rest : List Char}
    (h : List.Forall₂ (fun c d => digit? base c = some d) cs ds) (hrest : NoDigit base rest) :
    digits base 0 0 (cs ++ rest) = (cs.length, ofDigits base ds, rest) := by
  rw [digits_append h hrest, Nat.zero_add]
  rfl

theorem number_eq_some_iff {base bound n : Nat} {cs rest : List Char} :
    number base bound cs = some (n, rest) ↔
      ∃ front, cs = front ++ rest ∧ Numeral base front n ∧ n ≤ bound ∧ NoDigit base rest := by
  constructor
  · intro h
    obtain ⟨front, ds, rest', rfl, hds, hrest⟩ := exists_digits base cs
    simp only [number, digits_eq hds hrest, Bool.or_eq_true, decide_eq_true_eq] at h
    split at h
    · cases h
    · next hrange =>
      cases h
      have hfront : front ≠ [] := fun hnil => hrange (.inl (congrArg List.length hnil))
      exact ⟨front, rfl, ⟨hfront, ds, hds, rfl⟩, by omega, hrest⟩
  · rintro ⟨front, rfl, ⟨hfront, ds, hds, rfl⟩, hbound, hrest⟩
    have hlength : front.length ≠ 0 := mt List.length_eq_zero_iff.mp hfront
    simp [number, digits_eq hds hrest, hlength, hbound]

theorem octet_eq_some_iff {v : UInt8} {cs rest : List Char} :
    octet cs = some (v, rest) ↔ ∃ front, cs = front ++ rest ∧ Octet front v ∧ NoDigit 10 rest := by
  constructor
  · intro h
    obtain ⟨front, ds, rest', rfl, hds, hrest⟩ := exists_digits 10 cs
    simp only [octet, digits_eq hds hrest, Bool.or_eq_true, Bool.and_eq_true, decide_eq_true_eq,
      beq_iff_eq] at h
    split at h
    · cases h
    · next hrange =>
      cases h
      simp only [not_or, not_and] at hrange
      obtain ⟨⟨⟨hlength, hshort⟩, hbound⟩, halone⟩ := hrange
      have hfront : front ≠ [] := mt List.length_eq_zero_iff.mpr hlength
      have hvalue : (UInt8.ofNat (ofDigits 10 ds)).toNat = ofDigits 10 ds :=
        UInt8.toNat_ofNat_of_lt' (Nat.lt_succ_of_le (Nat.le_of_not_gt hbound))
      refine ⟨front, rfl, ⟨⟨hfront, ds, hds, hvalue.symm⟩, by omega, fun hzero => ?_⟩, hrest⟩
      rw [List.head?_append_of_ne_nil _ hfront] at halone
      have hlong := mt (halone · hzero) id
      omega
  · rintro ⟨front, rfl, ⟨⟨hfront, ds, hds, hvalue⟩, hshort, halone⟩, hrest⟩
    have hlength : front.length ≠ 0 := mt List.length_eq_zero_iff.mp hfront
    have hlt := v.toNat_lt
    have hrange : ¬ (((front.length = 0 ∨ front.length > 3) ∨ v.toNat > 255) ∨
        front.length > 1 ∧ (front ++ rest).head? = some '0') := by
      rw [List.head?_append_of_ne_nil _ hfront]
      rintro (h | ⟨hlong, hzero⟩)
      · omega
      · have := halone hzero
        omega
    simp only [octet, digits_eq hds hrest, Bool.or_eq_true, Bool.and_eq_true, decide_eq_true_eq,
      beq_iff_eq, hvalue, if_neg hrange, UInt8.ofNat_toNat]

theorem group_eq_some_iff {g : UInt16} {cs rest : List Char} :
    group cs = some (g, rest) ↔ ∃ front, cs = front ++ rest ∧ Group front g ∧ NoDigit 16 rest := by
  constructor
  · intro h
    obtain ⟨front, ds, rest', rfl, hds, hrest⟩ := exists_digits 16 cs
    simp only [group, digits_eq hds hrest, Bool.or_eq_true, decide_eq_true_eq] at h
    split at h
    · cases h
    · next hrange =>
      cases h
      have hfront : front ≠ [] := fun hnil => hrange (.inl (congrArg List.length hnil))
      have hshort : front.length ≤ 4 := by omega
      have hnumeral : Numeral 16 front (ofDigits 16 ds) := ⟨hfront, ds, hds, rfl⟩
      have hlt : ofDigits 16 ds < 16 ^ 4 := hnumeral.lt.trans_le (Nat.pow_le_pow_right (by omega) hshort)
      have hvalue : (UInt16.ofNat (ofDigits 16 ds)).toNat = ofDigits 16 ds :=
        UInt16.toNat_ofNat_of_lt' hlt
      exact ⟨front, rfl, ⟨⟨hfront, ds, hds, hvalue.symm⟩, hshort⟩, hrest⟩
  · rintro ⟨front, rfl, ⟨⟨hfront, ds, hds, hvalue⟩, hshort⟩, hrest⟩
    have hlength : front.length ≠ 0 := mt List.length_eq_zero_iff.mp hfront
    have hrange : ¬ (front.length = 0 ∨ 4 < front.length) := by omega
    simp only [group, digits_eq hds hrest, Bool.or_eq_true, decide_eq_true_eq, gt_iff_lt,
      if_neg hrange, hvalue, UInt16.ofNat_toNat]

theorem mark_eq_some_iff {c : Char} {cs rest : List Char} {u : Unit} :
    mark c cs = some (u, rest) ↔ cs = c :: rest := by
  cases cs with
  | nil => simp [mark]
  | cons d cs =>
    by_cases h : d = c <;> simp [mark, h]

/-! ## IPv4 addresses -/

theorem digit?_point (base : Nat) : digit? base '.' = none := by
  simp [digit?]

theorem ipv4_eq_some_iff {host : Ipv4} {cs rest : List Char} :
    ipv4 cs = some (host, rest) ↔ ∃ front, cs = front ++ rest ∧ Quad front host ∧ NoDigit 10 rest := by
  simp only [ipv4, Option.bind_eq_bind, Option.bind_eq_some_iff, Prod.exists, Option.some.injEq,
    Prod.mk.injEq, octet_eq_some_iff, mark_eq_some_iff]
  constructor
  · rintro ⟨a, _, ⟨cs₁, rfl, ha, -⟩, _, _, rfl, b, _, ⟨cs₂, rfl, hb, -⟩, _, _, rfl, c, _,
      ⟨cs₃, rfl, hc, -⟩, _, _, rfl, d, _, ⟨cs₄, rfl, hd, hrest⟩, rfl, rfl⟩
    exact ⟨_, by simp, .intro ha hb hc hd, hrest⟩
  · rintro ⟨front, rfl, ⟨ha, hb, hc, hd⟩, hrest⟩
    have hpoint (cs : List Char) : NoDigit 10 ('.' :: cs) := noDigit_cons.mpr (digit?_point 10)
    refine ⟨_, _, ⟨_, ?_, ha, hpoint _⟩, (), _, rfl, _, _, ⟨_, rfl, hb, hpoint _⟩, (), _, rfl, _, _,
      ⟨_, rfl, hc, hpoint _⟩, (), _, rfl, _, _, ⟨_, rfl, hd, hrest⟩, rfl, rfl⟩
    simp

/-! ## IPv6 addresses -/

theorem separated_eq_some_iff {α : Type} {isFirst : Bool} {item : Reads α} {cs rest : List Char}
    {value : α} : separated isFirst item cs = some (value, rest) ↔
      ∃ cs', cs = lead isFirst ++ cs' ∧ item cs' = some (value, rest) := by
  cases isFirst with
  | true => simp [separated, lead]
  | false =>
    simp only [separated, Bool.false_eq_true, if_false, Option.bind_eq_bind, Option.bind_eq_some_iff,
      Prod.exists, mark_eq_some_iff, lead]
    exact ⟨fun ⟨_, cs', hcs, hitem⟩ => ⟨cs', hcs, hitem⟩, fun ⟨cs', hcs, hitem⟩ => ⟨(), cs', hcs, hitem⟩⟩

theorem digit?_ne_none_of_mem {base n : Nat} {cs : List Char} (h : Numeral base cs n) {c : Char}
    (hc : c ∈ cs) : digit? base c ≠ none := by
  obtain ⟨-, ds, hds, -⟩ := h
  obtain ⟨i, hi, rfl⟩ := List.mem_iff_getElem.mp hc
  have hd := hds.get hi (hds.length_eq ▸ hi)
  rw [List.get_eq_getElem] at hd
  rw [hd]
  exact Option.some_ne_none _

/-- What may stand after a group of an IPv6 address. -/
inductive Border : List Char → Prop
  | colon {cs} : Border (':' :: cs)
  | percent {cs} : Border ('%' :: cs)
  | bracket {cs} : Border (']' :: cs)

theorem Border.noDigit {cs : List Char} (h : Border cs) (base : Nat) : NoDigit base cs := by
  cases h <;> simp [NoDigit, digit?]

/-- What may stand after the last of the groups that are read. -/
inductive Follows : List Char → Prop
  | colons {cs} : Follows (':' :: ':' :: cs)
  | percent {cs} : Follows ('%' :: cs)
  | bracket {cs} : Follows (']' :: cs)

theorem Follows.border {cs : List Char} (h : Follows cs) : Border cs := by
  cases h with
  | colons => exact .colon
  | percent => exact .percent
  | bracket => exact .bracket

theorem Follows.separated_eq_none {α : Type} {item : Reads α}
    (hitem : ∀ {cs value rest}, item cs = some (value, rest) → ¬ NoDigit 10 cs ∨ ¬ NoDigit 16 cs)
    {cs : List Char} (h : Follows cs) (isFirst : Bool) : separated isFirst item cs = none := by
  rw [Option.eq_none_iff_forall_ne_some]
  rintro ⟨value, rest⟩ hread
  obtain ⟨cs', hcs, hread⟩ := separated_eq_some_iff.mp hread
  have hborder : Border cs' := by
    cases isFirst with
    | true =>
      rw [lead, List.nil_append] at hcs
      exact hcs ▸ h.border
    | false =>
      cases h with
      | colons =>
        cases hcs
        exact .colon
      | percent | bracket => cases hcs
  rcases hitem hread with h | h
  · exact h (hborder.noDigit 10)
  · exact h (hborder.noDigit 16)

theorem Numeral.not_noDigit {base n : Nat} {cs rest : List Char} (h : Numeral base cs n) :
    ¬ NoDigit base (cs ++ rest) := by
  obtain ⟨c, cs, rfl⟩ := List.exists_cons_of_ne_nil h.1
  exact fun hc => digit?_ne_none_of_mem h (List.mem_cons_self ..) (noDigit_cons.mp hc)

theorem ipv4_starts {cs rest : List Char} {host : Ipv4} (h : ipv4 cs = some (host, rest)) :
    ¬ NoDigit 10 cs := by
  obtain ⟨front, rfl, ⟨ha, -, -, -⟩, -⟩ := ipv4_eq_some_iff.mp h
  rw [List.append_assoc]
  exact ha.numeral.not_noDigit

theorem group_starts {cs rest : List Char} {g : UInt16} (h : group cs = some (g, rest)) :
    ¬ NoDigit 16 cs := by
  obtain ⟨front, rfl, hg, -⟩ := group_eq_some_iff.mp h
  exact hg.numeral.not_noDigit

/-- A group is no beginning of an IPv4 address. -/
theorem ipv4_of_group {cs rest : List Char} {g : UInt16} (hg : Group cs g) (hrest : Border rest) :
    ipv4 (cs ++ rest) = none := by
  rw [Option.eq_none_iff_forall_ne_some]
  rintro ⟨host, rest'⟩ hread
  obtain ⟨front, hcs, ⟨ha, -, -, -⟩, -⟩ := ipv4_eq_some_iff.mp hread
  rw [List.append_assoc, List.append_eq_append_iff] at hcs
  rcases hcs with ⟨cs', rfl, hrest'⟩ | ⟨cs', rfl, hrest'⟩
  · cases cs' with
    | nil =>
      rw [List.nil_append] at hrest'
      rw [hrest'] at hrest
      cases hrest
    | cons c cs' =>
      have hc := digit?_ne_none_of_mem ha.numeral (c := c) (by simp)
      rw [hrest'] at hrest
      exact hc (noDigit_cons.mp (hrest.noDigit 10))
  · cases cs' with
    | nil =>
      rw [List.nil_append] at hrest'
      rw [← hrest'] at hrest
      cases hrest
    | cons c cs' =>
      obtain ⟨rfl, -⟩ := List.cons.inj hrest'
      exact digit?_ne_none_of_mem hg.numeral (c := '.') (by simp) (digit?_point 16)

theorem Groups.border {embedded : Bool} {cs rest : List Char} {gs : List UInt16}
    (h : Groups false embedded cs gs) (hrest : Border rest) : Border (cs ++ rest) := by
  cases h with
  | none => exact hrest
  | embedded _ => exact .colon
  | group _ _ => exact .colon

/-- The reader takes all groups that there are, if there are no more than it has room for. -/
theorem groups_append {isFirst embedded : Bool} {cs : List Char} {gs : List UInt16}
    (h : Groups isFirst embedded cs gs) {rest : List Char} (hrest : Follows rest) : ∀ {room},
    gs.length ≤ room → groups room isFirst (cs ++ rest) = (gs, embedded, rest) := by
  induction h with
  | @none isFirst =>
    intro room _
    cases room with
    | zero => rfl
    | succ room =>
      have hv4 := hrest.separated_eq_none (fun h => .inl (ipv4_starts h)) isFirst
      have hgroup := hrest.separated_eq_none (fun h => .inr (group_starts h)) isFirst
      simp [groups, hv4, hgroup]
  | @embedded isFirst cs host hcs =>
    intro room hroom
    obtain ⟨room, rfl⟩ : ∃ room', room = room' + 2 := ⟨room - 2, by simp [Ipv4.asGroups] at hroom; omega⟩
    have hread : separated isFirst ipv4 (lead isFirst ++ cs ++ rest) = some (host, rest) :=
      separated_eq_some_iff.mpr ⟨cs ++ rest, List.append_assoc .., ipv4_eq_some_iff.mpr
        ⟨cs, rfl, hcs, hrest.border.noDigit 10⟩⟩
    rw [groups, if_neg (Nat.succ_ne_zero room), hread]
  | @group isFirst embedded cs g more gs hcs hmore ih =>
    intro room hroom
    obtain ⟨room, rfl⟩ : ∃ room', room = room' + 1 := ⟨room - 1, by simp at hroom; omega⟩
    have hborder := hmore.border hrest.border
    have hv4 : separated isFirst ipv4 (lead isFirst ++ (cs ++ more) ++ rest) = none := by
      rw [Option.eq_none_iff_forall_ne_some]
      rintro ⟨host, rest'⟩ hread
      obtain ⟨cs', hcs', hipv4⟩ := separated_eq_some_iff.mp hread
      rw [List.append_assoc, List.append_cancel_left_eq, List.append_assoc] at hcs'
      rw [← hcs', ipv4_of_group hcs hborder] at hipv4
      cases hipv4
    have hgroup : separated isFirst group (lead isFirst ++ (cs ++ more) ++ rest) =
        some (g, more ++ rest) :=
      separated_eq_some_iff.mpr ⟨cs ++ (more ++ rest), by simp, group_eq_some_iff.mpr
        ⟨cs, rfl, hcs, hborder.noDigit 16⟩⟩
    rw [groups, hv4, ite_self, hgroup]
    simp only [ih (Nat.le_of_succ_le_succ hroom)]

/-- What the reader takes are groups, and no more than it has room for. -/
theorem groups_sound : ∀ {room : Nat} {isFirst : Bool} {cs : List Char} {gs embedded rest},
    groups room isFirst cs = (gs, embedded, rest) → ∃ front, cs = front ++ rest ∧
      Groups isFirst embedded front gs ∧ gs.length ≤ room
  | 0, isFirst, cs, gs, embedded, rest, h => by
    cases h
    exact ⟨[], rfl, .none, Nat.le_refl 0⟩
  | room + 1, isFirst, cs, gs, embedded, rest, h => by
    rw [groups] at h
    split at h
    · next host rest' hread =>
      cases h
      split at hread
      · cases hread
      · next hroom =>
        obtain ⟨cs', rfl, hipv4⟩ := separated_eq_some_iff.mp hread
        obtain ⟨front, rfl, hquad, -⟩ := ipv4_eq_some_iff.mp hipv4
        refine ⟨_, (List.append_assoc ..).symm, .embedded hquad, ?_⟩
        simp only [Ipv4.asGroups, List.length_cons, List.length_nil]
        omega
    · split at h
      · next g rest' hread =>
        obtain ⟨cs', rfl, hgroup⟩ := separated_eq_some_iff.mp hread
        obtain ⟨front, rfl, hg, -⟩ := group_eq_some_iff.mp hgroup
        rcases hmore : groups room false rest' with ⟨gs', embedded', rest''⟩
        rw [hmore] at h
        cases h
        obtain ⟨more, rfl, hgroups, hlength⟩ := groups_sound hmore
        exact ⟨_, by simp, .group hg hgroups, Nat.succ_le_succ hlength⟩
      · cases h
        exact ⟨[], rfl, .none, Nat.zero_le _⟩

theorem ipv6_append {cs rest : List Char} {host : Ipv6} (h : Hextets cs host) (hrest : Follows rest) :
    ipv6 (cs ++ rest) = some (host, rest) := by
  cases h with
  | full hgroups hlength =>
    have hread := groups_append hgroups hrest (Nat.le_of_eq hlength)
    simp only [ipv6, hread, if_pos hlength]
  | @short embedded front back gs gs' hfront hback hlength =>
    have hcolons : Follows (':' :: ':' :: (back ++ rest)) := .colons
    have hread := groups_append hfront hcolons (show gs.length ≤ 8 by omega)
    have hread' := groups_append hback hrest (show gs'.length ≤ 7 - gs.length by omega)
    have hlength' : ¬ gs.length = 8 := by omega
    simp only [ipv6, List.append_assoc, List.cons_append, hread, if_neg hlength', Bool.false_eq_true,
      if_false, mark, beq_self_eq_true, if_true, Option.bind_eq_bind, Option.bind_some, hread']

theorem ipv6_sound {cs rest : List Char} {host : Ipv6} (h : ipv6 cs = some (host, rest)) :
    ∃ front, cs = front ++ rest ∧ Hextets front host := by
  rcases hread : groups 8 true cs with ⟨gs, embedded, rest'⟩
  obtain ⟨front, rfl, hgroups, hlength⟩ := groups_sound hread
  simp only [ipv6, hread] at h
  split at h
  · next hfull =>
    cases h
    exact ⟨front, rfl, .full hgroups hfull⟩
  · next hshort =>
    cases embedded with
    | true => cases h
    | false =>
      simp only [Bool.false_eq_true, if_false, Option.bind_eq_bind, Option.bind_eq_some_iff,
        Prod.exists, mark_eq_some_iff] at h
      obtain ⟨_, _, rfl, _, cs', rfl, h⟩ := h
      rcases hread' : groups (7 - gs.length) true cs' with ⟨gs', embedded', rest''⟩
      obtain ⟨back, rfl, hgroups', hlength'⟩ := groups_sound hread'
      have hroom : gs.length + gs'.length ≤ 7 := by omega
      rw [hread'] at h
      cases h
      exact ⟨_, by simp, .short hgroups hgroups' hroom⟩

/-! ## Socket addresses -/

theorem portNumber_eq_some_iff {cs rest : List Char} {port : UInt16} :
    portNumber cs = some (port, rest) ↔
      ∃ ds, cs = ':' :: (ds ++ rest) ∧ Numeral 10 ds port.toNat ∧ NoDigit 10 rest := by
  simp only [portNumber, Option.bind_eq_bind, Option.bind_eq_some_iff, Prod.exists, mark_eq_some_iff,
    number_eq_some_iff, Option.some.injEq, Prod.mk.injEq]
  constructor
  · rintro ⟨_, _, rfl, n, _, ⟨ds, rfl, hds, hbound, hrest⟩, rfl, rfl⟩
    have hvalue : (UInt16.ofNat n).toNat = n := UInt16.toNat_ofNat_of_lt' (Nat.lt_succ_of_le hbound)
    exact ⟨ds, rfl, by rwa [hvalue], hrest⟩
  · rintro ⟨ds, rfl, hds, hrest⟩
    exact ⟨(), _, rfl, _, _, ⟨ds, rfl, hds, Nat.le_of_lt_succ port.toNat_lt, hrest⟩,
      UInt16.ofNat_toNat, rfl⟩

theorem scopeNumber_append {ss rest : List Char} {scope : UInt32} (h : Scoped ss scope) :
    scopeNumber (ss ++ ']' :: rest) = (scope, ']' :: rest) := by
  cases h with
  | none => rfl
  | @some ds _ hds =>
    have hread : number 10 4294967295 (ds ++ ']' :: rest) = some (scope.toNat, ']' :: rest) :=
      number_eq_some_iff.mpr ⟨ds, rfl, hds, Nat.le_of_lt_succ scope.toNat_lt, Border.bracket.noDigit 10⟩
    simp only [scopeNumber, List.cons_append, mark, beq_self_eq_true, if_true, hread, UInt32.ofNat_toNat]

theorem scopeNumber_sound {cs rest : List Char} {scope : UInt32} (h : scopeNumber cs = (scope, rest)) :
    ∃ ss, cs = ss ++ rest ∧ Scoped ss scope := by
  unfold scopeNumber at h
  split at h
  · next cs' hmark =>
    obtain rfl := mark_eq_some_iff.mp hmark
    split at h
    · next n rest' hnumber =>
      obtain ⟨ds, rfl, hds, hbound, -⟩ := number_eq_some_iff.mp hnumber
      have hvalue : (UInt32.ofNat n).toNat = n := UInt32.toNat_ofNat_of_lt' (Nat.lt_succ_of_le hbound)
      cases h
      exact ⟨'%' :: ds, rfl, .some (by rwa [hvalue])⟩
    · cases h
      exact ⟨[], rfl, .none⟩
  · cases h
    exact ⟨[], rfl, .none⟩

theorem readV4_spells {cs : List Char} {a : SocketAddress} (h : readV4 cs = some (a, [])) :
    Spells cs a := by
  simp only [readV4, Option.bind_eq_bind, Option.bind_eq_some_iff, Prod.exists, ipv4_eq_some_iff,
    portNumber_eq_some_iff, Option.some.injEq, Prod.mk.injEq] at h
  obtain ⟨host, _, ⟨front, rfl, hquad, -⟩, port, _, ⟨ds, rfl, hds, -⟩, rfl, rfl⟩ := h
  rw [List.append_nil]
  exact .v4 hquad hds

theorem readV6_spells {cs : List Char} {a : SocketAddress} (h : readV6 cs = some (a, [])) :
    Spells cs a := by
  simp only [readV6, Option.bind_eq_bind, Option.bind_eq_some_iff, Prod.exists, mark_eq_some_iff,
    portNumber_eq_some_iff, Option.some.injEq, Prod.mk.injEq] at h
  obtain ⟨_, _, rfl, host, cs', hread, _, _, hmark, port, _, ⟨ds, rfl, hds, -⟩, rfl, rfl⟩ := h
  obtain ⟨front, rfl, hhextets⟩ := ipv6_sound hread
  have hscope : scopeNumber cs' = ((scopeNumber cs').1, ']' :: ':' :: (ds ++ [])) := Prod.ext rfl hmark
  obtain ⟨ss, hcs', hscoped⟩ := scopeNumber_sound hscope
  have hspells := Spells.v6 hhextets hscoped hds
  rw [List.append_nil] at hcs'
  rwa [← hcs'] at hspells

theorem readV6_of_spells {cs ss ds : List Char} {host : Ipv6} {scope : UInt32} {port : UInt16}
    (hhost : Hextets cs host) (hscope : Scoped ss scope) (hport : Numeral 10 ds port.toNat) :
    readV6 ('[' :: (cs ++ (ss ++ ']' :: ':' :: ds))) = some (.v6 host scope port, []) := by
  have hfollows : Follows (ss ++ ']' :: ':' :: ds) := by
    cases hscope with
    | none => exact .bracket
    | some _ => exact .percent
  have hread : portNumber (':' :: ds) = some (port, []) :=
    portNumber_eq_some_iff.mpr ⟨ds, by simp, hport, noDigit_nil 10⟩
  simp only [readV6, mark, beq_self_eq_true, if_true, Option.bind_eq_bind, Option.bind_some,
    ipv6_append hhost hfollows, scopeNumber_append hscope, hread]

theorem readV4_of_spells {cs ds : List Char} {host : Ipv4} {port : UInt16} (hhost : Quad cs host)
    (hport : Numeral 10 ds port.toNat) : readV4 (cs ++ ':' :: ds) = some (.v4 host port, []) := by
  have hread : ipv4 (cs ++ ':' :: ds) = some (host, ':' :: ds) :=
    ipv4_eq_some_iff.mpr ⟨cs, rfl, hhost, Border.colon.noDigit 10⟩
  have hread' : portNumber (':' :: ds) = some (port, []) :=
    portNumber_eq_some_iff.mpr ⟨ds, by simp, hport, noDigit_nil 10⟩
  simp only [readV4, Option.bind_eq_bind, hread, Option.bind_some, hread']

theorem readV4_of_bracket (cs : List Char) : readV4 ('[' :: cs) = none := by
  have hread : ipv4 ('[' :: cs) = none := by
    rw [Option.eq_none_iff_forall_ne_some]
    rintro ⟨host, rest⟩ h
    exact ipv4_starts h (noDigit_cons.mpr (by decide))
  simp only [readV4, Option.bind_eq_bind, hread, Option.bind_none]

/-- **The texts that are read are those that spell an address**, and the address is what they spell. -/
theorem ofString?_eq_some_iff {text : String} {a : SocketAddress} :
    ofString? text = some a ↔ Spells text.toList a := by
  constructor
  · intro h
    unfold ofString? at h
    split at h
    · next a' hread =>
      cases h
      cases hv4 : readV4 text.toList with
      | some read =>
        rw [hv4] at hread
        exact readV4_spells (hv4.trans hread)
      | none =>
        rw [hv4] at hread
        exact readV6_spells hread
    · cases h
  · intro h
    unfold ofString?
    generalize text.toList = cs at h ⊢
    cases h with
    | v4 hhost hport => rw [readV4_of_spells hhost hport, Option.orElse_some]
    | v6 hhost hscope hport =>
      rw [readV4_of_bracket, Option.orElse_none, readV6_of_spells hhost hscope hport]

end SocketAddress

end UpgradeBridge
