/-
Texts and their octets. A text is told by its UTF-8 octets, a text of visible
characters has one octet for each, and two octet strings are the same but for case
if they are so octet by octet.
-/
import Mathlib.Data.List.Forall2
import UpgradeBridge.Text.Ascii

namespace UpgradeBridge

theorem data_toByteArray (text : String) : text.toByteArray.data = (utf8 text).toArray := by
  conv => lhs; rw [← text.ofList_toList, String.toByteArray_ofList]
  exact List.data_toByteArray

/-- A text is read off its own octets, and off no others. -/
theorem ofUtf8?_eq_some_iff {bytes : Bytes} {text : String} :
    ofUtf8? bytes = some text ↔ utf8 text = bytes := by
  unfold ofUtf8? String.fromUTF8?
  constructor
  · intro h
    split at h
    · cases h
      exact List.toArray_inj (data_toByteArray _).symm
    · cases h
  · rintro rfl
    have hbytes : text.toByteArray = ⟨(utf8 text).toArray⟩ := ByteArray.ext (data_toByteArray text)
    have hvalid := text.isValidUTF8
    rw [hbytes] at hvalid
    rw [dif_pos hvalid, Option.some.injEq, ← String.toByteArray_inj, hbytes]
    rfl

theorem utf8_inj {s t : String} : utf8 s = utf8 t ↔ s = t := by
  refine ⟨fun h => ?_, congrArg utf8⟩
  have hs : ofUtf8? (utf8 t) = some s := ofUtf8?_eq_some_iff.mpr h
  have ht : ofUtf8? (utf8 t) = some t := ofUtf8?_eq_some_iff.mpr rfl
  exact Option.some.inj (hs.symm.trans ht)

namespace Ascii

/-! ## Visible texts -/

theorem toNat_lt_of_isVisible {b : UInt8} (h : isVisible b = true) : b.toNat < 0x80 := by
  simp only [isVisible, Bool.or_eq_true, Bool.and_eq_true, decide_eq_true_eq, beq_iff_eq] at h
  rcases h with ⟨-, h⟩ | rfl
  · have hle := UInt8.le_iff_toNat_le.mp h
    have hmax : (0x7e : UInt8).toNat = 0x7e := rfl
    omega
  · decide

theorem utf8EncodeChar_of_lt {c : Char} (hc : c.toNat < 0x80) :
    String.utf8EncodeChar c = [UInt8.ofNat c.toNat] :=
  if_pos (Nat.le_of_lt_succ hc)

theorem utf8EncodeChar_ofNat {b : UInt8} (h : isVisible b = true) :
    String.utf8EncodeChar (Char.ofNat b.toNat) = [b] := by
  have hb := toNat_lt_of_isVisible h
  have hval : (Char.ofNat b.toNat).toNat = b.toNat := by
    rw [Char.ofNat, dif_pos (.inl (by omega))]
    rfl
  rw [utf8EncodeChar_of_lt (by omega), hval, UInt8.ofNat_toNat]

/-- The text of octets has these octets. -/
theorem utf8_of_visible? {bytes : Bytes} {text : String} (h : visible? bytes = some text) :
    utf8 text = bytes := by
  unfold visible? at h
  split at h
  · next hall =>
    cases h
    rw [utf8, String.toList_ofList, List.flatMap_map]
    induction bytes with
    | nil => rfl
    | cons b bytes ih =>
      simp only [List.all_cons, Bool.and_eq_true] at hall
      rw [List.flatMap_cons, utf8EncodeChar_ofNat hall.1, ih hall.2]
      rfl
  · cases h

/-- Octets that are visible ASCII characters, blanks or tabs, at least one of them. -/
def Readable (bytes : Bytes) : Prop :=
  bytes ≠ [] ∧ ∀ b ∈ bytes, (0x20 ≤ b ∧ b ≤ 0x7e) ∨ b = 0x09

theorem exists_visible?_iff {bytes : Bytes} :
    (∃ text, visible? bytes = some text) ↔ ∀ b ∈ bytes, (0x20 ≤ b ∧ b ≤ 0x7e) ∨ b = 0x09 := by
  unfold visible?
  split <;> simp_all [isVisible]

/-- The texts that are not empty are those of readable octets. -/
theorem visible?_eq_some_iff {bytes : Bytes} {text : String} :
    visible? bytes = some text ∧ text ≠ "" ↔ Readable bytes ∧ utf8 text = bytes := by
  constructor
  · rintro ⟨hvisible, hempty⟩
    have hbytes := utf8_of_visible? hvisible
    refine ⟨⟨?_, exists_visible?_iff.mp ⟨text, hvisible⟩⟩, hbytes⟩
    rintro rfl
    exact hempty (utf8_inj.mp hbytes)
  · rintro ⟨⟨hempty, hall⟩, hbytes⟩
    obtain ⟨text', hvisible⟩ := exists_visible?_iff.mpr hall
    obtain rfl : text = text' := utf8_inj.mp (hbytes.trans (utf8_of_visible? hvisible).symm)
    refine ⟨hvisible, ?_⟩
    rintro rfl
    exact hempty hbytes.symm

/-! ## Case -/

/-- The same octet, or the two cases of one letter. -/
def SameLetter (x y : UInt8) : Prop :=
  x = y ∨ (0x41 ≤ x ∧ x ≤ 0x5a ∧ y = x + 0x20) ∨ (0x41 ≤ y ∧ y ≤ 0x5a ∧ x = y + 0x20)

theorem toNat_add_case (x : UInt8) : (x + 0x20).toNat = (x.toNat + 0x20) % 256 :=
  UInt8.toNat_add x 0x20

theorem toNat_lowerByte (b : UInt8) : (lowerByte b).toNat =
    if 0x41 ≤ b.toNat ∧ b.toNat ≤ 0x5a then b.toNat + 0x20 else b.toNat := by
  have hupper : (0x41 ≤ b && b ≤ 0x5a) = true ↔ 0x41 ≤ b.toNat ∧ b.toNat ≤ 0x5a := by
    simp [UInt8.le_iff_toNat_le]
  rw [lowerByte, if_congr hupper rfl rfl]
  split
  · rw [toNat_add_case]
    omega
  · rfl

theorem lowerByte_eq_iff {x y : UInt8} : lowerByte x = lowerByte y ↔ SameLetter x y := by
  rw [← UInt8.toNat_inj, toNat_lowerByte, toNat_lowerByte]
  simp only [SameLetter, UInt8.le_iff_toNat_le, ← UInt8.toNat_inj, toNat_add_case,
    UInt8.reduceToNat]
  split <;> split <;> omega

/-- A letter is visible in either case. -/
theorem visible_of_sameLetter {x y : UInt8} (h : SameLetter x y) (hy : 0x61 ≤ y ∧ y ≤ 0x7a) :
    0x20 ≤ x ∧ x ≤ 0x7e := by
  simp only [SameLetter, UInt8.le_iff_toNat_le, ← UInt8.toNat_inj, toNat_add_case,
    UInt8.reduceToNat] at *
  omega

/-- A word is readable in any case. -/
theorem readable_of_letters {x y : Bytes} (h : List.Forall₂ SameLetter x y) (hy : y ≠ [])
    (hletters : y.all (fun b => 0x61 ≤ b && b ≤ 0x7a) = true) : Readable x := by
  refine ⟨?_, ?_⟩
  · rintro rfl
    cases h
    exact hy rfl
  · clear hy
    induction h with
    | nil => simp
    | cons hab _ ih =>
      rw [List.all_cons, Bool.and_eq_true, Bool.and_eq_true, decide_eq_true_eq,
        decide_eq_true_eq] at hletters
      obtain ⟨hb, hrest⟩ := hletters
      exact List.forall_mem_cons.mpr ⟨.inl (visible_of_sameLetter hab hb), ih hrest⟩

theorem sameIgnoringCase_iff {x y : Bytes} :
    sameIgnoringCase x y = true ↔ List.Forall₂ SameLetter x y := by
  rw [sameIgnoringCase, beq_iff_eq, ← List.forall₂_eq_eq_eq, List.forall₂_map_left_iff,
    List.forall₂_map_right_iff]
  simp only [lowerByte_eq_iff]

theorem toNat_toLower (c : Char) : c.toLower.toNat =
    if 0x41 ≤ c.toNat ∧ c.toNat ≤ 0x5a then c.toNat + 0x20 else c.toNat := by
  have hupper : c.val ≥ 'A'.val ∧ c.val ≤ 'Z'.val ↔ 0x41 ≤ c.toNat ∧ c.toNat ≤ 0x5a :=
    and_congr UInt32.le_iff_toNat_le UInt32.le_iff_toNat_le
  unfold Char.toLower
  split
  · next h =>
    have hsum : (c.val + 0x20).toNat = (c.toNat + 0x20) % 2 ^ 32 := UInt32.toNat_add c.val 0x20
    have h' := hupper.mp h
    rw [if_pos h']
    exact hsum.trans (by omega)
  · next h => rw [if_neg (mt hupper.mpr h)]

/-- The octets of a character beyond ASCII are all beyond it. -/
theorem le_of_mem_utf8EncodeChar {c : Char} (hc : 0x80 ≤ c.toNat) {b : UInt8}
    (hb : b ∈ String.utf8EncodeChar c) : 0x80 ≤ b.toNat := by
  have hascii : ¬c.val.toNat ≤ 0x7f := Nat.not_le_of_lt hc
  simp only [String.utf8EncodeChar, if_neg hascii] at hb
  split at hb
  · simp only [List.mem_cons, List.not_mem_nil, or_false] at hb
    rcases hb with rfl | rfl <;> simp only [UInt8.toNat_ofNat'] <;> omega
  · split at hb
    · simp only [List.mem_cons, List.not_mem_nil, or_false] at hb
      rcases hb with rfl | rfl | rfl <;> simp only [UInt8.toNat_ofNat'] <;> omega
    · simp only [List.mem_cons, List.not_mem_nil, or_false] at hb
      rcases hb with rfl | rfl | rfl | rfl <;> simp only [UInt8.toNat_ofNat'] <;> omega

-- Lower case is of the character here and of the octet there: they agree because an ASCII
-- character is its only octet, and no octet of another character is a letter.
theorem utf8EncodeChar_toLower (c : Char) :
    String.utf8EncodeChar c.toLower = (String.utf8EncodeChar c).map lowerByte := by
  have hlower := toNat_toLower c
  by_cases hc : c.toNat < 0x80
  · have hoctet : (UInt8.ofNat c.toNat).toNat = c.toNat := by
      rw [UInt8.toNat_ofNat']
      omega
    rw [utf8EncodeChar_of_lt hc, utf8EncodeChar_of_lt (by split at hlower <;> omega),
      List.map_singleton, List.singleton_inj, ← UInt8.toNat_inj, toNat_lowerByte, hoctet, hlower,
      UInt8.toNat_ofNat']
    split <;> omega
  · have hsame : c.toLower = c := by
      rw [if_neg (by omega)] at hlower
      exact Char.toNat_inj.mp hlower
    have hbytes (b : UInt8) (hb : b ∈ String.utf8EncodeChar c) : lowerByte b = b := by
      have hb := le_of_mem_utf8EncodeChar (Nat.le_of_not_lt hc) hb
      rw [← UInt8.toNat_inj, toNat_lowerByte, if_neg (by omega)]
    rw [hsame, List.map_congr_left hbytes, List.map_id']

theorem utf8_lower (text : String) : utf8 (lower text) = (utf8 text).map lowerByte := by
  rw [utf8, utf8, lower, String.toList_ofList, List.flatMap_map, List.map_flatMap]
  simp only [utf8EncodeChar_toLower]

/-- Texts come to the same in lower case if they are the same but for the case of ASCII letters. -/
theorem lower_eq_lower_iff {s t : String} :
    lower s = lower t ↔ List.Forall₂ SameLetter (utf8 s) (utf8 t) := by
  rw [← utf8_inj, utf8_lower, utf8_lower, ← sameIgnoringCase_iff, sameIgnoringCase, beq_iff_eq]

end Ascii

end UpgradeBridge
