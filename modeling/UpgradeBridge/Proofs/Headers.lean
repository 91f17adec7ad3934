/-
The multimap of header fields through its one view: which values a name has
after each operation.
-/
import Mathlib.Data.List.Basic
import UpgradeBridge.Headers

namespace UpgradeBridge.Headers

open Header

theorem values_append (h : Headers) (n m : Name) (v : Value) :
    (h.append n v).values m = h.values m ++ if n = m then [v] else [] := by
  simp only [values, append, List.filterMap_append]
  by_cases hnm : n = m <;> simp [hnm]

theorem values_remove (h : Headers) (n m : Name) :
    (h.remove n).values m = if n = m then [] else h.values m := by
  simp only [values, remove, List.filterMap_filter]
  by_cases hnm : n = m
  · subst hnm
    simp only [if_true, List.filterMap_eq_nil_iff]
    rintro ⟨k, v⟩ _
    by_cases hk : k = n <;> simp [hk]
  · rw [if_neg hnm]
    apply List.filterMap_congr
    rintro ⟨k, v⟩ _
    by_cases hk : k = n
    · simp [hk, hnm]
    · simp [hk]

theorem values_insert (h : Headers) (n m : Name) (v : Value) :
    (h.insert n v).values m = if n = m then [v] else h.values m := by
  rw [insert, values_append, values_remove]
  by_cases hnm : n = m <;> simp [hnm]

/-- The order of fields of different names does not count. -/
theorem values_swap {n m : Name} (hne : n ≠ m) (v w : Value) (front back : List (Name × Value))
    (k : Name) :
    values ⟨front ++ (n, v) :: (m, w) :: back⟩ k = values ⟨front ++ (m, w) :: (n, v) :: back⟩ k := by
  simp only [values, List.filterMap_append, List.filterMap_cons]
  by_cases hn : n = k
  · have hm : m ≠ k := fun h => hne (hn.trans h.symm)
    simp [hn, hm]
  · simp [hn]

theorem last?_append (h : Headers) (n m : Name) (v : Value) :
    (h.append n v).last? m = if n = m then some v else h.last? m := by
  rw [last?, values_append]
  by_cases hnm : n = m <;> simp [hnm, last?]

theorem last?_insert (h : Headers) (n m : Name) (v : Value) :
    (h.insert n v).last? m = if n = m then some v else h.last? m := by
  rw [last?, values_insert]
  by_cases hnm : n = m <;> simp [hnm, last?]

/-! ## Operations that undo or repeat others -/

theorem remove_eq_self {h : Headers} {n : Name} (hvalues : h.values n = []) : h.remove n = h := by
  rw [values, List.filterMap_eq_nil_iff] at hvalues
  have hall : ∀ e ∈ h.entries, decide (e.1 ≠ n) = true := by
    intro e he
    have hnone := hvalues e he
    by_cases hn : e.1 = n <;> simp_all
  rw [remove, List.filter_eq_self.mpr hall]

theorem remove_append_self (h : Headers) (n : Name) (v : Value) :
    (h.append n v).remove n = h.remove n := by
  simp [remove, append]

theorem remove_append_of_ne (h : Headers) {n m : Name} (hne : n ≠ m) (v : Value) :
    (h.append n v).remove m = (h.remove m).append n v := by
  simp [remove, append, hne]

theorem insert_append_self (h : Headers) (n : Name) (v w : Value) :
    (h.append n v).insert n w = h.insert n w := by
  rw [insert, insert, remove_append_self]

end UpgradeBridge.Headers
