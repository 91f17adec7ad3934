/-
Strings of bits, most significant first, which the standards for digests and for
Base64 speak of: the bits of octets, and the numbers that bits spell.
-/
import Mathlib
import UpgradeBridge.Text.Ascii

namespace UpgradeBridge

/-- The last bits of a number, as many as the width says. -/
def binary : (width n : Nat) → List Bool
  | 0, _ => []
  | width + 1, n => n.testBit width :: binary width n

/-- The number that bits spell. -/
def number (bits : List Bool) : Nat :=
  bits.foldl (fun n bit => 2 * n + bit.toNat) 0

/-- The bits of octets. -/
def octetBits (bytes : Bytes) : List Bool :=
  bytes.flatMap fun b => binary 8 b.toNat

/-- Bits in different places are joined as numbers are added. -/
theorem mul_or {a b w : Nat} (h : b < 2 ^ w) : a * 2 ^ w ||| b = a * 2 ^ w + b := by
  rw [← Nat.shiftLeft_eq, Nat.shiftLeft_add_eq_or_of_lt h]

theorem length_binary (width n : Nat) : (binary width n).length = width := by
  induction width with
  | zero => rfl
  | succ width ih => rw [binary, List.length_cons, ih]

/-- The bits of a number are its upper bits and then its lower ones. -/
theorem binary_add (a b n : Nat) : binary (a + b) n = binary a (n >>> b) ++ binary b n := by
  induction a with
  | zero => rw [Nat.zero_add, binary, List.nil_append]
  | succ a ih =>
    rw [Nat.succ_add, binary, binary, ih, Nat.testBit_shiftRight, Nat.add_comm b a]
    rfl

theorem binary_mod (width n : Nat) : binary width (n % 2 ^ width) = binary width n := by
  suffices h : ∀ m, m ≤ width → binary m (n % 2 ^ width) = binary m n from h width le_rfl
  intro m
  induction m with
  | zero => exact fun _ => rfl
  | succ m ih =>
    intro hm
    rw [binary, binary, ih (by omega), Nat.testBit_mod_two_pow, decide_eq_true (by omega),
      Bool.true_and]

/-- The bits of two numbers are those of one. -/
theorem binary_append (u v x : Nat) {y : Nat} (hy : y < 2 ^ v) :
    binary u x ++ binary v y = binary (u + v) (x * 2 ^ v + y) := by
  have hupper : (x * 2 ^ v + y) >>> v = x := by
    rw [Nat.shiftRight_eq_div_pow, Nat.mul_comm, Nat.mul_add_div (Nat.two_pow_pos v),
      Nat.div_eq_of_lt hy, Nat.add_zero]
  have hlower : binary v (x * 2 ^ v + y) = binary v y := by
    rw [← binary_mod, Nat.mul_comm, Nat.mul_add_mod, binary_mod]
  rw [binary_add, hupper, hlower]

theorem foldl_number (bits : List Bool) (n : Nat) :
    bits.foldl (fun n bit => 2 * n + bit.toNat) n = n * 2 ^ bits.length + number bits := by
  induction bits generalizing n with
  | nil => simp [number]
  | cons bit bits ih =>
    rw [number, List.foldl_cons, List.foldl_cons, ih, ih (2 * 0 + bit.toNat), List.length_cons,
      pow_succ]
    ring

theorem number_append (xs ys : List Bool) :
    number (xs ++ ys) = number xs * 2 ^ ys.length + number ys := by
  rw [number, List.foldl_append, foldl_number]
  rfl

theorem number_lt (bits : List Bool) : number bits < 2 ^ bits.length := by
  induction bits with
  | nil => simp [number]
  | cons bit bits ih =>
    have hcons := number_append [bit] bits
    rw [List.singleton_append] at hcons
    have hbit : number [bit] ≤ 1 := by cases bit <;> decide
    rw [hcons, List.length_cons, pow_succ]
    have := Nat.mul_le_mul_right (2 ^ bits.length) hbit
    omega

theorem number_binary (width n : Nat) : number (binary width n) = n % 2 ^ width := by
  induction width with
  | zero => simp [binary, number, Nat.mod_one]
  | succ width ih =>
    have hsplit := number_append [n.testBit width] (binary width n)
    rw [List.singleton_append, ih, length_binary] at hsplit
    have hbit : number [n.testBit width] = n / 2 ^ width % 2 := by
      rw [← Nat.toNat_testBit]
      simp [number]
    rw [binary, hsplit, hbit, pow_succ, Nat.mod_mul, Nat.mul_comm, Nat.add_comm]

theorem octetBits_cons (b : UInt8) (bytes : Bytes) :
    octetBits (b :: bytes) = binary 8 b.toNat ++ octetBits bytes :=
  List.flatMap_cons

theorem octetBits_append (xs ys : Bytes) :
    octetBits (xs ++ ys) = octetBits xs ++ octetBits ys :=
  List.flatMap_append

theorem length_octetBits (bytes : Bytes) : (octetBits bytes).length = 8 * bytes.length := by
  induction bytes with
  | nil => rfl
  | cons b bytes ih =>
    rw [octetBits_cons, List.length_append, length_binary, ih, List.length_cons]
    omega

theorem drop_octetBits (n : Nat) (bytes : Bytes) :
    (octetBits bytes).drop (8 * n) = octetBits (bytes.drop n) := by
  induction n generalizing bytes with
  | zero => rfl
  | succ n ih =>
    cases bytes with
    | nil => simp [octetBits]
    | cons b bytes =>
      have hn : 8 * (n + 1) = (binary 8 b.toNat).length + 8 * n := by
        rw [length_binary]
        omega
      rw [octetBits_cons, hn, List.drop_append, List.drop_of_length_le (by omega),
        Nat.add_sub_cancel_left, ih, List.nil_append, List.drop_succ_cons]

theorem take_octetBits (n : Nat) (bytes : Bytes) :
    (octetBits bytes).take (8 * n) = octetBits (bytes.take n) := by
  by_cases hn : n ≤ bytes.length
  · have hsplit : octetBits bytes = octetBits (bytes.take n) ++ octetBits (bytes.drop n) := by
      rw [← octetBits_append, List.take_append_drop]
    have hlength : 8 * n = (octetBits (bytes.take n)).length := by
      rw [length_octetBits, List.length_take_of_le hn]
    rw [hsplit, hlength, List.take_left]
  · rw [List.take_of_length_le (by rw [length_octetBits]; omega),
      List.take_of_length_le (by omega)]

end UpgradeBridge
