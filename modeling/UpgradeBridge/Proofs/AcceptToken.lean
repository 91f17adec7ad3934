/-
Accept tokens as header values: every token is a legal value, whatever the key
and the alphabet.
-/
import Mathlib.Data.List.GetD
import UpgradeBridge.AcceptToken
import UpgradeBridge.Headers

namespace UpgradeBridge

namespace Base64

/-- What padded Base64 is written with. -/
def Alphabet.marks (alphabet : Alphabet) : List Char :=
  alphabet.characters ++ ['=']

theorem Alphabet.character_mem (alphabet : Alphabet) (v : UInt8) :
    alphabet.character v ∈ alphabet.marks := by
  unfold character marks
  by_cases h : v.toNat < alphabet.characters.length
  · rw [List.getD_eq_getElem _ _ h]
    exact List.mem_append_left _ (List.getElem_mem h)
  · rw [List.getD_eq_default _ _ (by omega)]
    simp

theorem mem_marks_of_mem_encode {alphabet : Alphabet} {bytes : Bytes} {c : Char}
    (h : c ∈ encode alphabet bytes) : c ∈ alphabet.marks := by
  have heq : '=' ∈ alphabet.marks := by simp [Alphabet.marks]
  fun_induction encode alphabet bytes with
  | case1 x y z rest ih =>
    simp only [List.mem_cons] at h
    rcases h with rfl | rfl | rfl | rfl | h
    iterate 4 exact alphabet.character_mem _
    exact ih h
  | case2 x y =>
    simp only [List.mem_cons, List.not_mem_nil, or_false] at h
    rcases h with rfl | rfl | rfl | rfl
    iterate 3 exact alphabet.character_mem _
    exact heq
  | case3 x =>
    simp only [List.mem_cons, List.not_mem_nil, or_false] at h
    rcases h with rfl | rfl | rfl | rfl
    iterate 2 exact alphabet.character_mem _
    iterate 2 exact heq
  | case4 => simp at h

/-- Base64 is written in characters that header values may hold. -/
theorem Alphabet.marks_legal (alphabet : Alphabet) :
    ∀ c ∈ alphabet.marks, (String.utf8EncodeChar c).all Header.isValueByte = true := by
  -- the marks are listed, so that not every character is tried
  have hall : alphabet.marks.all fun c => (String.utf8EncodeChar c).all Header.isValueByte := by
    cases alphabet <;> decide
  exact List.all_eq_true.mp hall

end Base64

theorem acceptToken_legal (key : String) (alphabet : Base64.Alphabet) :
    (utf8 (acceptToken key alphabet)).all Header.isValueByte = true := by
  simp only [utf8, acceptToken, String.toList_ofList, List.all_flatMap, List.all_eq_true]
  intro c hc
  simpa using alphabet.marks_legal c (Base64.mem_marks_of_mem_encode hc)

/-- The accept token of a key as a header value. -/
def acceptValue (key : String) (alphabet : Base64.Alphabet) : Header.Value :=
  ⟨utf8 (acceptToken key alphabet), acceptToken_legal key alphabet⟩

theorem ofString?_acceptToken (key : String) (alphabet : Base64.Alphabet) :
    Header.Value.ofString? (acceptToken key alphabet) = some (acceptValue key alphabet) := by
  simp [Header.Value.ofString?, Header.Value.ofBytes?, acceptToken_legal, acceptValue]

end UpgradeBridge
