/-
Base64 against its standard. `Standard.text` states the encoding as RFC 4648 does,
for strings of bits: groups of six bits, the last one filled up with zeros, are
looked up in the alphabet, and the text is filled up to whole groups of four
characters.

The encoding of octets is the standard's (`encode_eq`), and decoding undoes it
(`decode?_encode`).
-/
import UpgradeBridge.Base64
import UpgradeBridge.Proofs.Bits

namespace UpgradeBridge.Base64

/-! ## The standard -/

namespace Standard

/-- The character of a value, tables 1 and 2. -/
def letter (alphabet : Alphabet) (value : Nat) : Char :=
  if value < 26 then Char.ofNat ('A'.toNat + value)
  else if value < 52 then Char.ofNat ('a'.toNat + (value - 26))
  else if value < 62 then Char.ofNat ('0'.toNat + (value - 52))
  else
    match alphabet, value with
    | .standard, 62 => '+'
    | .standard, _ => '/'
    | .urlSafe, 62 => '-'
    | .urlSafe, _ => '_'

/-- The values of groups of six bits. Zeros are added on the right to form whole groups. -/
def sextets : List Bool → List Nat
  | u :: v :: w :: x :: y :: z :: bits => number [u, v, w, x, y, z] :: sextets bits
  | [] => []
  | bits => [number (bits ++ List.replicate (6 - bits.length) false)]

/-- The text of a string of bits, section 4. -/
def text (alphabet : Alphabet) (bits : List Bool) : List Char :=
  let letters := (sextets bits).map (letter alphabet)
  letters ++ List.replicate ((4 - letters.length % 4) % 4) '='

end Standard

theorem character_eq (alphabet : Alphabet) {v : UInt8} (h : v.toNat < 64) :
    alphabet.character v = Standard.letter alphabet v.toNat := by
  have hall : ∀ n < 64, alphabet.characters.getD n '=' = Standard.letter alphabet n := by
    cases alphabet <;> decide +kernel
  exact hall _ h

theorem sextets_append (n : Nat) (bits : List Bool) :
    Standard.sextets (binary 6 n ++ bits) = n % 2 ^ 6 :: Standard.sextets bits := by
  rw [← number_binary]
  rfl

theorem sextets_two (n : Nat) : Standard.sextets (binary 2 n) = [n % 2 ^ 2 * 2 ^ 4] := by
  rw [← number_binary]
  exact congrArg (fun value => [value]) (number_append (binary 2 n) (List.replicate 4 false))

theorem sextets_four (n : Nat) : Standard.sextets (binary 4 n) = [n % 2 ^ 4 * 2 ^ 2] := by
  rw [← number_binary]
  exact congrArg (fun value => [value]) (number_append (binary 4 n) (List.replicate 2 false))

/-! ## Six bits of octets -/

theorem toNat_shiftRight {k : UInt8} (hk : k.toNat < 8) (a : UInt8) :
    (a >>> k).toNat = a.toNat / 2 ^ k.toNat := by
  rw [UInt8.toNat_shiftRight, Nat.shiftRight_eq_div_pow, Nat.mod_eq_of_lt hk]

theorem toNat_shiftLeft {k : UInt8} (hk : k.toNat < 8) (a : UInt8) :
    (a <<< k).toNat = a.toNat % 2 ^ (8 - k.toNat) * 2 ^ k.toNat := by
  have hwidth : 2 ^ 8 = 2 ^ (8 - k.toNat) * 2 ^ k.toNat := by
    rw [← pow_add, Nat.sub_add_cancel hk.le]
  rw [UInt8.toNat_shiftLeft, Nat.mod_eq_of_lt hk, Nat.shiftLeft_eq, hwidth, Nat.mul_mod_mul_right]

/-- Two octets are joined where the bits of the one end. -/
theorem toNat_shiftLeft_or {k b : UInt8} (hk : k.toNat < 8) (hb : b.toNat < 2 ^ k.toNat)
    (a : UInt8) :
    (a <<< k ||| b).toNat = a.toNat % 2 ^ (8 - k.toNat) * 2 ^ k.toNat + b.toNat := by
  rw [UInt8.toNat_or, toNat_shiftLeft hk, mul_or hb]

/-- The first six bits of an octet. -/
theorem toNat_first (a : UInt8) : (a >>> 2).toNat = a.toNat / 2 ^ 2 :=
  toNat_shiftRight (by decide) a

/-- The last two bits of an octet, and four zeros. -/
theorem toNat_last_two (a : UInt8) : ((a &&& 0x03) <<< 4).toNat = a.toNat % 2 ^ 2 * 2 ^ 4 := by
  have hmask : (a &&& 0x03).toNat = a.toNat % 2 ^ 2 := Nat.and_two_pow_sub_one_eq_mod _ 2
  have hshift := toNat_shiftLeft (k := 4) (by decide) (a &&& 0x03)
  have hlt : a.toNat % 2 ^ 2 < 2 ^ 4 := by omega
  rw [hshift, hmask]
  exact congrArg (· * 2 ^ 4) (Nat.mod_eq_of_lt hlt)

/-- The last four bits of an octet, and two zeros. -/
theorem toNat_last_four (a : UInt8) : ((a &&& 0x0f) <<< 2).toNat = a.toNat % 2 ^ 4 * 2 ^ 2 := by
  have hmask : (a &&& 0x0f).toNat = a.toNat % 2 ^ 4 := Nat.and_two_pow_sub_one_eq_mod _ 4
  have hshift := toNat_shiftLeft (k := 2) (by decide) (a &&& 0x0f)
  have hlt : a.toNat % 2 ^ 4 < 2 ^ 6 := by omega
  rw [hshift, hmask]
  exact congrArg (· * 2 ^ 2) (Nat.mod_eq_of_lt hlt)

/-- The last two bits of an octet and the first four of the next one. -/
theorem toNat_second (a b : UInt8) : ((a &&& 0x03) <<< 4 ||| b >>> 4).toNat =
    a.toNat % 2 ^ 2 * 2 ^ 4 + b.toNat / 2 ^ 4 := by
  have hb : (b >>> 4).toNat = b.toNat / 2 ^ 4 := toNat_shiftRight (by decide) b
  have hlt := b.toNat_lt
  rw [UInt8.toNat_or, toNat_last_two, hb, mul_or (by omega)]

/-- The last four bits of an octet and the first two of the next one. -/
theorem toNat_third (b c : UInt8) : ((b &&& 0x0f) <<< 2 ||| c >>> 6).toNat =
    b.toNat % 2 ^ 4 * 2 ^ 2 + c.toNat / 2 ^ 6 := by
  have hc : (c >>> 6).toNat = c.toNat / 2 ^ 6 := toNat_shiftRight (by decide) c
  have hlt := c.toNat_lt
  rw [UInt8.toNat_or, toNat_last_four, hc, mul_or (by omega)]

/-- The last six bits of an octet. -/
theorem toNat_last_six (c : UInt8) : (c &&& 0x3f).toNat = c.toNat % 2 ^ 6 :=
  Nat.and_two_pow_sub_one_eq_mod _ 6

/-- The bits of three octets are those of four values. -/
theorem octetBits_three (a b c : UInt8) (rest : Bytes) : octetBits (a :: b :: c :: rest) =
    binary 6 (a.toNat / 2 ^ 2) ++ (binary 6 (a.toNat * 2 ^ 4 + b.toNat / 2 ^ 4) ++
      (binary 6 (b.toNat * 2 ^ 2 + c.toNat / 2 ^ 6) ++ (binary 6 c.toNat ++ octetBits rest))) := by
  have hb := b.toNat_lt
  have hc := c.toNat_lt
  rw [octetBits_cons, octetBits_cons, octetBits_cons, binary_add 6 2, binary_add 4 4,
    binary_add 2 6, ← binary_append 2 4 _ (by omega), ← binary_append 4 2 _ (by omega)]
  simp only [List.append_assoc, Nat.shiftRight_eq_div_pow]

theorem sextets_three (a b c : UInt8) (rest : Bytes) :
    Standard.sextets (octetBits (a :: b :: c :: rest)) =
      a.toNat / 2 ^ 2 :: (a.toNat % 2 ^ 2 * 2 ^ 4 + b.toNat / 2 ^ 4) ::
        (b.toNat % 2 ^ 4 * 2 ^ 2 + c.toNat / 2 ^ 6) :: c.toNat % 2 ^ 6 ::
          Standard.sextets (octetBits rest) := by
  have ha := a.toNat_lt
  have hb := b.toNat_lt
  have hc := c.toNat_lt
  have hfirst : a.toNat / 2 ^ 2 % 2 ^ 6 = a.toNat / 2 ^ 2 := by omega
  have hsecond : (a.toNat * 2 ^ 4 + b.toNat / 2 ^ 4) % 2 ^ 6 =
    a.toNat % 2 ^ 2 * 2 ^ 4 + b.toNat / 2 ^ 4 := by omega
  have hthird : (b.toNat * 2 ^ 2 + c.toNat / 2 ^ 6) % 2 ^ 6 =
    b.toNat % 2 ^ 4 * 2 ^ 2 + c.toNat / 2 ^ 6 := by omega
  rw [octetBits_three, sextets_append, sextets_append, sextets_append, sextets_append, hfirst,
    hsecond, hthird]

theorem sextets_of_two (a b : UInt8) :
    Standard.sextets (octetBits [a, b]) =
      [a.toNat / 2 ^ 2, a.toNat % 2 ^ 2 * 2 ^ 4 + b.toNat / 2 ^ 4, b.toNat % 2 ^ 4 * 2 ^ 2] := by
  have ha := a.toNat_lt
  have hb := b.toNat_lt
  have hfirst : a.toNat / 2 ^ 2 % 2 ^ 6 = a.toNat / 2 ^ 2 := by omega
  have hsecond : (a.toNat * 2 ^ 4 + b.toNat / 2 ^ 4) % 2 ^ 6 =
    a.toNat % 2 ^ 2 * 2 ^ 4 + b.toNat / 2 ^ 4 := by omega
  have hbits : octetBits [a, b] = binary 6 (a.toNat / 2 ^ 2) ++
      (binary 6 (a.toNat * 2 ^ 4 + b.toNat / 2 ^ 4) ++ binary 4 b.toNat) := by
    rw [octetBits_cons, octetBits_cons, binary_add 6 2, binary_add 4 4,
      ← binary_append 2 4 _ (by omega)]
    simp [octetBits, Nat.shiftRight_eq_div_pow]
  rw [hbits, sextets_append, sextets_append, sextets_four, hfirst, hsecond]

theorem sextets_of_one (a : UInt8) :
    Standard.sextets (octetBits [a]) = [a.toNat / 2 ^ 2, a.toNat % 2 ^ 2 * 2 ^ 4] := by
  have ha := a.toNat_lt
  have hfirst : a.toNat / 2 ^ 2 % 2 ^ 6 = a.toNat / 2 ^ 2 := by omega
  have hbits : octetBits [a] = binary 6 (a.toNat / 2 ^ 2) ++ binary 2 a.toNat := by
    rw [octetBits_cons, binary_add 6 2]
    simp [octetBits, Nat.shiftRight_eq_div_pow]
  rw [hbits, sextets_append, sextets_two, hfirst]

theorem text_of_group {alphabet : Alphabet} {bits rest : List Bool} {s₁ s₂ s₃ s₄ : Nat}
    (h : Standard.sextets bits = s₁ :: s₂ :: s₃ :: s₄ :: Standard.sextets rest) :
    Standard.text alphabet bits =
      Standard.letter alphabet s₁ :: Standard.letter alphabet s₂ :: Standard.letter alphabet s₃ ::
        Standard.letter alphabet s₄ :: Standard.text alphabet rest := by
  have hfill (n : Nat) : (n + 1 + 1 + 1 + 1) % 4 = n % 4 := Nat.add_mod_right n 4
  simp only [Standard.text, h, List.map_cons, List.length_cons, hfill, List.cons_append]

theorem character_of_toNat (alphabet : Alphabet) {v : UInt8} {n : Nat} (hv : v.toNat = n)
    (hn : n < 64) : alphabet.character v = Standard.letter alphabet n := by
  subst hv
  exact character_eq alphabet hn

theorem encode_eq (alphabet : Alphabet) (bytes : Bytes) :
    encode alphabet bytes = Standard.text alphabet (octetBits bytes) := by
  fun_induction encode alphabet bytes with
  | case1 a b c rest ih =>
    have ha := a.toNat_lt
    have hb := b.toNat_lt
    have hc := c.toNat_lt
    rw [text_of_group (sextets_three a b c rest), ih,
      character_of_toNat alphabet (toNat_first a) (by omega),
      character_of_toNat alphabet (toNat_second a b) (by omega),
      character_of_toNat alphabet (toNat_third b c) (by omega),
      character_of_toNat alphabet (toNat_last_six c) (by omega)]
  | case2 a b =>
    have ha := a.toNat_lt
    have hb := b.toNat_lt
    rw [Standard.text, sextets_of_two,
      character_of_toNat alphabet (toNat_first a) (by omega),
      character_of_toNat alphabet (toNat_second a b) (by omega),
      character_of_toNat alphabet (toNat_last_four b) (by omega)]
    rfl
  | case3 a =>
    have ha := a.toNat_lt
    rw [Standard.text, sextets_of_one,
      character_of_toNat alphabet (toNat_first a) (by omega),
      character_of_toNat alphabet (toNat_last_two a) (by omega)]
    rfl
  | case4 => simp [Standard.text, Standard.sextets, octetBits]

/-! ## The length and the characters of a text -/

theorem length_lt_six {bits : List Bool}
    (h : ∀ u v w x y z rest, bits ≠ u :: v :: w :: x :: y :: z :: rest) : bits.length < 6 := by
  match bits with
  | u :: v :: w :: x :: y :: z :: rest => exact absurd rfl (h u v w x y z rest)
  | [] | [_] | [_, _] | [_, _, _] | [_, _, _, _] | [_, _, _, _, _] => simp

theorem length_sextets (bits : List Bool) :
    (Standard.sextets bits).length = (bits.length + 5) / 6 := by
  fun_induction Standard.sextets bits with
  | case1 u v w x y z bits ih =>
    simp only [List.length_cons, ih]
    omega
  | case2 => rfl
  | case3 bits hlong hempty =>
    have hlt := length_lt_six hlong
    have hpos := List.length_pos_of_ne_nil hempty
    rw [List.length_singleton]
    omega

theorem number_lt_64 {bits : List Bool} (h : bits.length = 6) : number bits < 64 := by
  have hlt := number_lt bits
  rw [h] at hlt
  exact hlt

theorem lt_of_mem_sextets {bits : List Bool} {s : Nat} (h : s ∈ Standard.sextets bits) :
    s < 64 := by
  fun_induction Standard.sextets bits with
  | case1 u v w x y z bits ih =>
    rcases List.mem_cons.mp h with rfl | h
    · exact number_lt_64 rfl
    · exact ih h
  | case2 => simp at h
  | case3 bits hlong hempty =>
    have hlt := length_lt_six hlong
    obtain rfl := List.mem_singleton.mp h
    refine number_lt_64 ?_
    rw [List.length_append, List.length_replicate]
    omega

/-- No value is written as the character that fills a text up, and every value is read back. -/
theorem letter_of_lt (alphabet : Alphabet) {s : Nat} (h : s < 64) :
    Standard.letter alphabet s ≠ '=' ∧
      alphabet.value? (Standard.letter alphabet s) = some (UInt8.ofNat s) := by
  have hall : ∀ s < 64, Standard.letter alphabet s ≠ '=' ∧
      alphabet.value? (Standard.letter alphabet s) = some (UInt8.ofNat s) := by
    cases alphabet <;> decide +kernel
  exact hall s h

/-- A text is letters and, after them, what fills it up. -/
theorem text_eq (alphabet : Alphabet) (bits : List Bool) :
    ∃ letters : List Char, letters.length = (bits.length + 5) / 6 ∧ '=' ∉ letters ∧
      Standard.text alphabet bits =
        letters ++ List.replicate ((4 - letters.length % 4) % 4) '=' := by
  refine ⟨(Standard.sextets bits).map (Standard.letter alphabet), ?_, fun h => ?_, rfl⟩
  · rw [List.length_map, length_sextets]
  · obtain ⟨s, hs, hletter⟩ := List.mem_map.mp h
    exact (letter_of_lt alphabet (lt_of_mem_sextets hs)).1 hletter

/-- The character of the alphabet for web addresses that stands where the standard alphabet has a
given one. -/
def webSafe (c : Char) : Char :=
  if c = '+' then '-' else if c = '/' then '_' else c

theorem webSafe_letter {s : Nat} (h : s < 64) :
    webSafe (Standard.letter .standard s) = Standard.letter .urlSafe s := by
  have hall : ∀ s < 64,
      webSafe (Standard.letter .standard s) = Standard.letter .urlSafe s := by
    decide +kernel
  exact hall s h

/-- The two alphabets differ in two characters. -/
theorem text_urlSafe (bits : List Bool) :
    Standard.text .urlSafe bits = (Standard.text .standard bits).map webSafe := by
  have hletters : (Standard.sextets bits).map (Standard.letter .urlSafe) =
      ((Standard.sextets bits).map (Standard.letter .standard)).map webSafe := by
    rw [List.map_map]
    refine List.map_congr_left fun s hs => ?_
    exact (webSafe_letter (lt_of_mem_sextets hs)).symm
  rw [Standard.text, Standard.text, hletters, List.map_append, List.map_replicate, List.length_map]
  rfl

/-! ## Decoding -/

theorem value?_character (alphabet : Alphabet) {v : UInt8} (h : v.toNat < 64) :
    alphabet.value? (alphabet.character v) = some v := by
  rw [character_eq alphabet h, (letter_of_lt alphabet h).2, UInt8.ofNat_toNat]

theorem character_ne (alphabet : Alphabet) {v : UInt8} (h : v.toNat < 64) :
    alphabet.character v ≠ '=' := by
  rw [character_eq alphabet h]
  exact (letter_of_lt alphabet h).1

theorem join_first {a x : UInt8} (hx : x.toNat / 2 ^ 4 = a.toNat % 2 ^ 2) :
    (a >>> 2) <<< 2 ||| x >>> 4 = a := by
  have hshift : (x >>> 4).toNat = x.toNat / 2 ^ 4 := toNat_shiftRight (by decide) x
  have hjoined := toNat_shiftLeft_or (k := 2) (b := x >>> 4) (by decide)
    (by change _ < 2 ^ 2; omega) (a >>> 2)
  have ha := a.toNat_lt
  rw [toNat_first, hshift, hx] at hjoined
  rw [← UInt8.toNat_inj, hjoined]
  change a.toNat / 2 ^ 2 % 2 ^ 6 * 2 ^ 2 + a.toNat % 2 ^ 2 = a.toNat
  omega

theorem join_second {b x y : UInt8} (hx : x.toNat % 2 ^ 4 = b.toNat / 2 ^ 4)
    (hy : y.toNat / 2 ^ 2 = b.toNat % 2 ^ 4) : x <<< 4 ||| y >>> 2 = b := by
  have hjoined := toNat_shiftLeft_or (k := 4) (b := y >>> 2) (by decide)
    (by rw [toNat_first]; change _ < 2 ^ 4; omega) x
  rw [toNat_first, hy] at hjoined
  rw [← UInt8.toNat_inj, hjoined]
  change x.toNat % 2 ^ 4 * 2 ^ 4 + b.toNat % 2 ^ 4 = b.toNat
  omega

theorem join_third {c y : UInt8} (hy : y.toNat % 2 ^ 2 = c.toNat / 2 ^ 6) :
    y <<< 6 ||| c &&& 0x3f = c := by
  have hjoined := toNat_shiftLeft_or (k := 6) (b := c &&& 0x3f) (by decide)
    (by rw [toNat_last_six]; change _ < 2 ^ 6; omega) y
  rw [toNat_last_six] at hjoined
  rw [← UInt8.toNat_inj, hjoined]
  change y.toNat % 2 ^ 2 * 2 ^ 6 + c.toNat % 2 ^ 6 = c.toNat
  omega

theorem decode?_encode (alphabet : Alphabet) (bytes : Bytes) :
    decode? alphabet (encode alphabet bytes) = some bytes := by
  fun_induction encode alphabet bytes with
  | case1 a b c rest ih =>
    have ha := a.toNat_lt
    have hb := b.toNat_lt
    have hc := c.toNat_lt
    have hfirst := toNat_first a
    have hsecond := toNat_second a b
    have hthird := toNat_third b c
    have hlast := toNat_last_six c
    rw [decode?]
    · rw [value?_character alphabet (by omega), value?_character alphabet (by omega),
        value?_character alphabet (by omega), value?_character alphabet (by omega), ih]
      refine congrArg some ?_
      rw [join_first (by omega), join_second (b := b) (by omega) (by omega), join_third (by omega)]
    · intro _ h _
      exact character_ne alphabet (by omega) h
    · intro h _
      exact character_ne alphabet (by omega) h
  | case2 a b =>
    have ha := a.toNat_lt
    have hb := b.toNat_lt
    have hfirst := toNat_first a
    have hsecond := toNat_second a b
    have hlast := toNat_last_four b
    rw [decode?]
    · rw [value?_character alphabet (by omega), value?_character alphabet (by omega),
        value?_character alphabet (by omega)]
      refine congrArg some ?_
      rw [join_first (by omega), join_second (b := b) (by omega) (by omega)]
    · exact character_ne alphabet (by omega)
  | case3 a =>
    have ha := a.toNat_lt
    have hfirst := toNat_first a
    have hlast := toNat_last_two a
    rw [decode?, value?_character alphabet (by omega), value?_character alphabet (by omega)]
    refine congrArg some ?_
    rw [join_first (by omega)]
  | case4 => rfl

end UpgradeBridge.Base64
