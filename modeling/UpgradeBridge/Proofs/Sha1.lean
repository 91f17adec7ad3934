/-
SHA-1 against its standard. `Standard` states the hash as FIPS 180-4 does, for
strings of bits: the padded message is cut into blocks of 512 bits and words of
32, and the words of each block's schedule are told by their index.

The digest of a message is the standard's (`octetBits_digest`), and a hasher that
is given a message in parts comes to the digest of the whole (`finalize_eq`).
-/
import UpgradeBridge.Digest.Sha1.Hasher
import UpgradeBridge.Proofs.Bits

namespace UpgradeBridge.Sha1

/-! ## The standard -/

namespace Standard

/-- A word. Its sums are without carry. -/
abbrev Word := BitVec 32

/-- The function of a step, section 4.1.1. -/
def mixing (t : Nat) (x y z : Word) : Word :=
  if t < 20 then (x &&& y) ^^^ (~~~x &&& z)
  else if t < 40 then x ^^^ y ^^^ z
  else if t < 60 then (x &&& y) ^^^ (x &&& z) ^^^ (y &&& z)
  else x ^^^ y ^^^ z

/-- The constant of a step, section 4.2.1. -/
def constant (t : Nat) : Word :=
  if t < 20 then 0x5a827999
  else if t < 40 then 0x6ed9eba1
  else if t < 60 then 0x8f1bbcdc
  else 0xca62c1d6

theorem exists_zeros (length : Nat) : ∃ k, (length + 1 + k) % 512 = 448 :=
  ⟨(959 - length % 512) % 512, by omega⟩

/-- How many zeros follow the one bit after a message: the least number with which there is room for
64 bits in the last block, section 5.1.1. -/
def zeros (length : Nat) : Nat :=
  Nat.find (exists_zeros length)

/-- The padded message, section 5.1.1. -/
def pad (message : List Bool) : List Bool :=
  message ++ true :: List.replicate (zeros message.length) false ++ binary 64 message.length

/-- A word of a block, section 5.2.1. -/
def blockWord (padded : List Bool) (block t : Nat) : Word :=
  BitVec.ofNat 32 (number ((padded.drop (512 * block + 32 * t)).take 32))

/-- The hash value between two blocks, or the working variables between two steps. -/
structure Hash where
  a : Word
  b : Word
  c : Word
  d : Word
  e : Word

/-- The initial hash value, section 5.3.1. -/
def Hash.initial : Hash :=
  ⟨0x67452301, 0xefcdab89, 0x98badcfe, 0x10325476, 0xc3d2e1f0⟩

/-- A word of the message schedule, section 6.1.2. -/
def scheduled (message : Nat → Word) (t : Nat) : Word :=
  if t < 16 then message t
  else
    (scheduled message (t - 3) ^^^ scheduled message (t - 8) ^^^ scheduled message (t - 14) ^^^
      scheduled message (t - 16)).rotateLeft 1
termination_by t

/-- A step on a word of the schedule. -/
def step (message : Nat → Word) (v : Hash) (t : Nat) : Hash where
  a := v.a.rotateLeft 5 + mixing t v.b v.c v.d + v.e + constant t + scheduled message t
  b := v.a
  c := v.b.rotateLeft 30
  d := v.c
  e := v.d

/-- The hash value after one more block, given by its words. -/
def next (message : Nat → Word) (h : Hash) : Hash :=
  let v := (List.range 80).foldl (step message) h
  ⟨v.a + h.a, v.b + h.b, v.c + h.c, v.d + h.d, v.e + h.e⟩

/-- The hash value after all blocks of a padded message. -/
def blocks (padded : List Bool) : Hash :=
  (List.range (padded.length / 512)).foldl (fun h i => next (blockWord padded i) h) Hash.initial

/-- The message digest of a string of bits. -/
def hash (message : List Bool) : List Bool :=
  let h := blocks (pad message)
  binary 32 h.a.toNat ++ binary 32 h.b.toNat ++ binary 32 h.c.toNat ++ binary 32 h.d.toNat ++
    binary 32 h.e.toNat

end Standard

/-! ## Words -/

theorem toBitVec_mix (t : Nat) (x y z : UInt32) :
    (mix t x y z).toBitVec = Standard.mixing t x.toBitVec y.toBitVec z.toBitVec := by
  unfold mix Standard.mixing
  split
  · ext i hi
    simp
    grind
  · split
    · simp
    · split
      · ext i hi
        simp
        grind
      · simp

theorem toBitVec_constant (t : Nat) : (constant t).toBitVec = Standard.constant t := by
  unfold constant Standard.constant
  split
  · rfl
  · split
    · rfl
    · split <;> rfl

theorem toBitVec_rotate {n : UInt32} (hpos : 0 < n.toNat) (hlt : n.toNat < 32) (w : UInt32) :
    (rotate n w).toBitVec = w.toBitVec.rotateLeft n.toNat := by
  have hwidth : BitVec.toNat (32 : BitVec 32) = 32 := rfl
  have hrest : (32 - n).toNat = 32 - n.toNat :=
    UInt32.toNat_sub_of_le 32 n (UInt32.le_iff_toNat_le.mpr hlt.le)
  simp only [rotate, BitVec.rotateLeft_def, UInt32.toBitVec_or, UInt32.toBitVec_shiftLeft,
    UInt32.toBitVec_shiftRight, BitVec.shiftLeft_eq', BitVec.ushiftRight_eq', BitVec.toNat_umod,
    UInt32.toNat_toBitVec, hrest, hwidth, Nat.mod_eq_of_lt hlt,
    Nat.mod_eq_of_lt (Nat.sub_lt (by decide : 0 < 32) hpos)]

theorem toNat_word (a b c d : UInt8) : (word a b c d).toNat =
    a.toNat * 2 ^ 24 + (b.toNat * 2 ^ 16 + (c.toNat * 2 ^ 8 + d.toNat)) := by
  have ha := a.toNat_lt
  have hb := b.toNat_lt
  have hc := c.toNat_lt
  have hd := d.toNat_lt
  simp only [word, UInt32.toNat_or, UInt32.toNat_shiftLeft, UInt8.toNat_toUInt32,
    UInt32.reduceToNat, Nat.reduceMod, Nat.shiftLeft_eq]
  rw [Nat.mod_eq_of_lt (a := a.toNat * 2 ^ 24) (by omega),
    Nat.mod_eq_of_lt (a := b.toNat * 2 ^ 16) (by omega),
    Nat.mod_eq_of_lt (a := c.toNat * 2 ^ 8) (by omega), Nat.or_assoc, Nat.or_assoc,
    mul_or (b := d.toNat) hd, mul_or (w := 16) (by omega), mul_or (w := 24) (by omega)]

/-- The bits of four octets spell the word that the octets spell. -/
theorem ofNat_number (a b c d : UInt8) :
    BitVec.ofNat 32 (number (octetBits [a, b, c, d])) = (word a b c d).toBitVec := by
  have hnumber : number (octetBits [a, b, c, d]) = (word a b c d).toNat := by
    simp only [octetBits, List.flatMap_cons, List.flatMap_nil, number_append, number_binary,
      List.length_append, length_binary, List.length_nil, toNat_word,
      Nat.mod_eq_of_lt (UInt8.toNat_lt _)]
    simp [number]
  rw [hnumber]
  exact BitVec.ofNat_toNat _ _

theorem octetBits_octets (w : UInt32) : octetBits (octets w) = binary 32 w.toNat := by
  have hoctet (n : Nat) : binary 8 (n % 256) = binary 8 n := binary_mod 8 n
  rw [binary_add 24 8, binary_add 16 8, binary_add 8 8]
  simp [octets, octetBits, hoctet, ← Nat.shiftRight_add]

theorem octetBits_octets64 (n : UInt64) : octetBits (octets64 n) = binary 64 n.toNat := by
  have hoctet (n : Nat) : binary 8 (n % 256) = binary 8 n := binary_mod 8 n
  rw [binary_add 56 8, binary_add 48 8, binary_add 40 8, binary_add 32 8, binary_add 24 8,
    binary_add 16 8, binary_add 8 8]
  simp [octets64, octetBits, hoctet, ← Nat.shiftRight_add]

/-! ## Padding -/

theorem zeros_eq (n : Nat) : Standard.zeros (8 * n) = 7 + 8 * ((119 - n % 64) % 64) := by
  refine (Nat.find_eq_iff _).mpr ⟨by omega, fun k hk => by omega⟩

theorem octetBits_replicate (n : Nat) :
    octetBits (List.replicate n 0) = List.replicate (8 * n) false := by
  induction n with
  | zero => rfl
  | succ n ih =>
    have height : binary 8 (0 : UInt8).toNat = List.replicate 8 false := by decide
    rw [List.replicate_succ, octetBits_cons, ih, height, List.replicate_append_replicate]
    congr 1
    omega

/-- Octets are padded as their bits are. -/
theorem octetBits_padded (message : Bytes) :
    octetBits (message ++ padding message.length) = Standard.pad (octetBits message) := by
  have hone : binary 8 (0x80 : UInt8).toNat = true :: List.replicate 7 false := by decide
  have hlength : binary 64 (8 * message.length) =
      binary 64 (UInt64.ofNat (8 * message.length)).toNat := by
    rw [UInt64.toNat_ofNat', binary_mod]
  rw [Standard.pad, length_octetBits, zeros_eq, octetBits_append, padding, octetBits_append,
    octetBits_cons, octetBits_replicate, octetBits_octets64, hone, hlength,
    ← List.replicate_append_replicate]
  simp only [List.append_assoc, List.cons_append]

/-! ## Blocks -/

/-- The word of a block in terms of its octets. -/
theorem blockWord_octetBits (bytes : Bytes) (i t : Nat) :
    Standard.blockWord (octetBits bytes) i t =
      BitVec.ofNat 32 (number (octetBits ((bytes.drop (64 * i + 4 * t)).take 4))) := by
  have hdrop : 512 * i + 32 * t = 8 * (64 * i + 4 * t) := by omega
  rw [Standard.blockWord, hdrop, drop_octetBits]
  exact congrArg _ (congrArg _ (take_octetBits 4 _))

theorem words_eq (n : Nat) (bytes : Bytes) (h : bytes.length = 4 * n) :
    (words bytes).map UInt32.toBitVec =
      (List.range n).map (Standard.blockWord (octetBits bytes) 0) := by
  induction n generalizing bytes with
  | zero =>
    obtain rfl := List.eq_nil_of_length_eq_zero h
    rfl
  | succ n ih =>
    match bytes, h with
    | a :: b :: c :: d :: rest, h =>
      have hrest : rest.length = 4 * n := by
        simp only [List.length_cons] at h
        omega
      rw [words, List.map_cons, ih rest hrest, List.range_succ_eq_map, List.map_cons,
        List.map_map, blockWord_octetBits]
      refine congrArg₂ List.cons (ofNat_number a b c d).symm (List.map_congr_left fun t _ => ?_)
      rw [Function.comp_apply, blockWord_octetBits, blockWord_octetBits]
      rfl

/-- The words of a schedule depend on the sixteen words of the block. -/
theorem scheduled_congr {m m' : Nat → Standard.Word} (h : ∀ t < 16, m t = m' t) (t : Nat) :
    Standard.scheduled m t = Standard.scheduled m' t := by
  induction t using Nat.strong_induction_on with
  | _ t ih =>
    rw [Standard.scheduled, Standard.scheduled.eq_def m']
    split
    · next ht => exact h t ht
    · rw [ih (t - 3) (by omega), ih (t - 8) (by omega), ih (t - 14) (by omega),
        ih (t - 16) (by omega)]

/-- The newest words of a schedule that is kept newest first. -/
theorem toBitVec_getD {m : Nat → Standard.Word} {ws : List UInt32} {n : Nat}
    (h : ws.map UInt32.toBitVec = ((List.range n).map (Standard.scheduled m)).reverse) {i : Nat}
    (hi : i < n) : (ws.getD i 0).toBitVec = Standard.scheduled m (n - 1 - i) := by
  have hmap : (ws.getD i 0).toBitVec = (ws.map UInt32.toBitVec).getD i 0 :=
    (List.getD_map ..).symm
  rw [hmap, h, List.getD_eq_getElem _ _ (by simpa using hi), List.getElem_reverse]
  simp

theorem expand_eq {m : Nat → Standard.Word} (k : Nat) {ws : List UInt32} {n : Nat} (hn : 16 ≤ n)
    (h : ws.map UInt32.toBitVec = ((List.range n).map (Standard.scheduled m)).reverse) :
    (expand k ws).map UInt32.toBitVec =
      ((List.range (n + k)).map (Standard.scheduled m)).reverse := by
  induction k generalizing ws n with
  | zero => exact h
  | succ k ih =>
    rw [expand, Nat.add_succ, ← Nat.succ_add]
    refine ih (by omega) ?_
    rw [List.map_cons, h, List.range_succ, List.map_append, List.reverse_append]
    refine congrArg (· :: _) ?_
    rw [toBitVec_rotate (by decide) (by decide)]
    simp only [UInt32.toBitVec_xor]
    rw [toBitVec_getD h (by omega), toBitVec_getD h (by omega), toBitVec_getD h (by omega),
      toBitVec_getD h (by omega), Standard.scheduled.eq_def m n, if_neg (by omega)]
    rfl

theorem schedule_eq {block : Bytes} (h : block.length = 64) :
    (schedule block).map UInt32.toBitVec =
      (List.range 80).map (Standard.scheduled (Standard.blockWord (octetBits block) 0)) := by
  have hwords : (words block).map UInt32.toBitVec =
      (List.range 16).map (Standard.scheduled (Standard.blockWord (octetBits block) 0)) := by
    rw [words_eq 16 block h]
    refine List.map_congr_left fun t ht => ?_
    rw [Standard.scheduled, if_pos (List.mem_range.mp ht)]
  rw [schedule, List.map_reverse, expand_eq 64 le_rfl (by rw [List.map_reverse, hwords]),
    List.reverse_reverse]

/-! ## Rounds -/

/-- The chaining words as the standard has them. -/
def Chain.hash (v : Chain) : Standard.Hash :=
  ⟨v.a.toBitVec, v.b.toBitVec, v.c.toBitVec, v.d.toBitVec, v.e.toBitVec⟩

theorem hash_step {m : Nat → Standard.Word} {t : Nat} {w : UInt32}
    (h : w.toBitVec = Standard.scheduled m t) (v : Chain) :
    (step t v w).hash = Standard.step m v.hash t := by
  simp only [step, Chain.hash, Standard.step, UInt32.toBitVec_add, toBitVec_mix,
    toBitVec_constant, h]
  rw [toBitVec_rotate (by decide) (by decide), toBitVec_rotate (by decide) (by decide)]
  rfl

theorem hash_rounds {m : Nat → Standard.Word} (ws : List UInt32) (t : Nat) (v : Chain)
    (h : ws.map UInt32.toBitVec = (List.range' t ws.length).map (Standard.scheduled m)) :
    (rounds t v ws).hash = (List.range' t ws.length).foldl (Standard.step m) v.hash := by
  induction ws generalizing t v with
  | nil => rfl
  | cons w ws ih =>
    rw [List.map_cons, List.length_cons, List.range'_succ, List.map_cons] at h
    obtain ⟨hw, hws⟩ := List.cons.inj h
    rw [rounds, ih (t + 1) _ hws, List.length_cons, List.range'_succ, List.foldl_cons, hash_step hw]

theorem hash_compress {block : Bytes} (h : block.length = 64) (v : Chain) :
    (compress v block).hash = Standard.next (Standard.blockWord (octetBits block) 0) v.hash := by
  have hschedule := schedule_eq h
  have hlength : (schedule block).length = 80 := by
    simpa using congrArg List.length hschedule
  have hrounds := hash_rounds (schedule block) 0 v
    (by rw [hschedule, hlength, List.range_eq_range'])
  rw [hlength, ← List.range_eq_range'] at hrounds
  rw [Standard.next, ← hrounds]
  simp only [compress, Chain.hash, UInt32.toBitVec_add, BitVec.add_comm]

/-! ## Messages -/

theorem absorb_of_short {bytes : Bytes} (h : bytes.length < 64) (v : Chain) :
    absorb v bytes = (v, bytes) := by
  rw [absorb, dif_pos (by simp; omega)]

theorem absorb_of_block {bytes : Bytes} (h : 64 ≤ bytes.length) (v : Chain) :
    absorb v bytes = absorb (compress v (bytes.take 64)) (bytes.drop 64) := by
  rw [absorb, dif_neg (by simp; omega)]

/-- The words of a block are those of its octets alone. -/
theorem blockWord_take (bytes : Bytes) {t : Nat} (ht : t < 16) :
    Standard.blockWord (octetBits (bytes.take 64)) 0 t =
      Standard.blockWord (octetBits bytes) 0 t := by
  have hwithin : ((bytes.take 64).drop (64 * 0 + 4 * t)).take 4 =
      (bytes.drop (64 * 0 + 4 * t)).take 4 := by
    rw [List.drop_take, List.take_take, Nat.min_eq_left (by omega)]
  rw [blockWord_octetBits, blockWord_octetBits, hwithin]

theorem blockWord_drop (bytes : Bytes) (i t : Nat) :
    Standard.blockWord (octetBits (bytes.drop 64)) i t =
      Standard.blockWord (octetBits bytes) (i + 1) t := by
  rw [blockWord_octetBits, blockWord_octetBits, List.drop_drop]
  congr 5
  omega

theorem next_congr {m m' : Nat → Standard.Word} (h : ∀ t < 16, m t = m' t) (v : Standard.Hash) :
    Standard.next m v = Standard.next m' v := by
  have hstep : Standard.step m = Standard.step m' := by
    funext v t
    rw [Standard.step, Standard.step, scheduled_congr h t]
  rw [Standard.next, Standard.next, hstep]

/-- Whole blocks are absorbed one after the other. -/
theorem hash_absorb (n : Nat) {bytes : Bytes} (h : bytes.length = 64 * n) (v : Chain) :
    (absorb v bytes).1.hash =
      (List.range n).foldl (fun h i => Standard.next (Standard.blockWord (octetBits bytes) i) h)
        v.hash := by
  induction n generalizing bytes v with
  | zero =>
    rw [absorb_of_short (by omega)]
    rfl
  | succ n ih =>
    have hblock : (bytes.take 64).length = 64 := List.length_take_of_le (by omega)
    have hfirst : (compress v (bytes.take 64)).hash =
        Standard.next (Standard.blockWord (octetBits bytes) 0) v.hash := by
      rw [hash_compress hblock]
      exact next_congr (fun t ht => blockWord_take bytes ht) _
    have hwords (i : Nat) : Standard.blockWord (octetBits (bytes.drop 64)) i =
        Standard.blockWord (octetBits bytes) (i + 1) := funext (blockWord_drop bytes i)
    rw [absorb_of_block (by omega), ih (by rw [List.length_drop]; omega), hfirst,
      List.range_succ_eq_map, List.foldl_cons, List.foldl_map]
    simp only [hwords]

/-- **The digest of octets is the digest of their bits**, as the standard has it. -/
theorem octetBits_digest (message : Bytes) :
    octetBits (digest message) = Standard.hash (octetBits message) := by
  have hpadded := octetBits_padded message
  obtain ⟨n, hn⟩ : ∃ n, (message ++ padding message.length).length = 64 * n := by
    refine ⟨(message.length + 72) / 64, ?_⟩
    simp [padding, octets64]
    omega
  have hblocks : (Standard.pad (octetBits message)).length / 512 = n := by
    rw [← hpadded, length_octetBits, hn]
    omega
  have habsorb := hash_absorb n hn Chain.initial
  rw [hpadded] at habsorb
  have hfinal : Standard.blocks (Standard.pad (octetBits message)) =
      (absorb Chain.initial (message ++ padding message.length)).1.hash := by
    rw [habsorb, Standard.blocks, hblocks]
    rfl
  rw [Standard.hash, hfinal, digest, Chain.output]
  simp only [octetBits_append, octetBits_octets]
  rfl

/-! ## Messages in parts -/

/-- What is left over when octets were absorbed is absorbed with those that follow. -/
theorem absorb_append (v : Chain) (xs ys : Bytes) :
    absorb (absorb v xs).1 ((absorb v xs).2 ++ ys) = absorb v (xs ++ ys) := by
  fun_induction absorb v xs with
  | case1 v xs h => rfl
  | case2 v xs h ih =>
    have hlong : 64 ≤ xs.length := by
      simp at h
      omega
    have hwhole : 64 ≤ (xs ++ ys).length := by
      rw [List.length_append]
      omega
    rw [ih, absorb_of_block hwhole, List.take_append_of_le_length hlong,
      List.drop_append_of_le_length hlong]

/-- A hasher after a message. -/
def Hasher.Took (h : Hasher) (message : Bytes) : Prop :=
  (h.chain, h.pending) = absorb Chain.initial message ∧ h.length = message.length

theorem Hasher.took_nothing : ({} : Hasher).Took [] :=
  ⟨(absorb_of_short (by decide) _).symm, rfl⟩

theorem Hasher.Took.update {h : Hasher} {message : Bytes} (took : h.Took message) (more : Bytes) :
    (h.update more).Took (message ++ more) := by
  obtain ⟨habsorbed, hlength⟩ := took
  refine ⟨?_, ?_⟩
  · rw [← absorb_append, ← habsorbed]
    rfl
  · rw [List.length_append, ← hlength]
    rfl

theorem Hasher.Took.finalize {h : Hasher} {message : Bytes} (took : h.Took message) :
    h.finalize = digest message := by
  obtain ⟨habsorbed, hlength⟩ := took
  rw [Hasher.finalize, digest, ← absorb_append Chain.initial message, ← habsorbed, hlength]

/-- **A message in parts is one message**: whatever a hasher is given part by part, it comes to the
digest of the whole. -/
theorem Hasher.finalize_updates (parts : List Bytes) :
    (parts.foldl Hasher.update {}).finalize = digest parts.flatten := by
  suffices h : ∀ (h : Hasher) (message : Bytes), h.Took message →
      (parts.foldl Hasher.update h).Took (message ++ parts.flatten) from
    (h {} [] Hasher.took_nothing).finalize
  induction parts with
  | nil =>
    intro h message took
    rwa [List.flatten_nil, List.append_nil]
  | cons part parts ih =>
    intro h message took
    rw [List.foldl_cons, List.flatten_cons, ← List.append_assoc]
    exact ih _ _ (took.update part)

end UpgradeBridge.Sha1
