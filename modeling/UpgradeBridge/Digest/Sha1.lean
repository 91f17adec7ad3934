/-
SHA-1 as FIPS 180-4 states it: pad the message to whole blocks of 64 octets,
expand each block to eighty words, run eighty rounds per block on five chaining
words, and write the words out most significant octet first.

`digest` pads the whole message. The hasher of `Digest.Sha1.Hasher` takes the
message in parts.
-/
import UpgradeBridge.Text.Ascii

namespace UpgradeBridge.Sha1

/-- The five chaining words. -/
structure Chain where
  a : UInt32
  b : UInt32
  c : UInt32
  d : UInt32
  e : UInt32
  deriving DecidableEq, Repr

/-- The chaining words before the first block. -/
def Chain.initial : Chain :=
  ⟨0x67452301, 0xefcdab89, 0x98badcfe, 0x10325476, 0xc3d2e1f0⟩

/-- Rotation of a word to the left, by one to 31 places. -/
def rotate (n : UInt32) (w : UInt32) : UInt32 :=
  (w <<< n) ||| (w >>> (32 - n))

/-- The word that four octets spell, most significant octet first. -/
def word (a b c d : UInt8) : UInt32 :=
  (a.toUInt32 <<< 24) ||| (b.toUInt32 <<< 16) ||| (c.toUInt32 <<< 8) ||| d.toUInt32

/-- The words of a string of octets; up to three octets left over spell none. -/
def words : Bytes → List UInt32
  | a :: b :: c :: d :: rest => word a b c d :: words rest
  | _ => []

/-- Adds words to a schedule kept newest first: each is the rotated sum, without carry, of the
words 3, 8, 14 and 16 places before it. -/
def expand : Nat → List UInt32 → List UInt32
  | 0, ws => ws
  | n + 1, ws =>
    expand n (rotate 1 (ws.getD 2 0 ^^^ ws.getD 7 0 ^^^ ws.getD 13 0 ^^^ ws.getD 15 0) :: ws)

/-- The eighty words of a block. -/
def schedule (block : Bytes) : List UInt32 :=
  (expand 64 (words block).reverse).reverse

/-- The mixing function of a round. -/
def mix (round : Nat) (b c d : UInt32) : UInt32 :=
  if round < 20 then (b &&& c) ||| (~~~b &&& d)
  else if round < 40 then b ^^^ c ^^^ d
  else if round < 60 then (b &&& c) ||| (b &&& d) ||| (c &&& d)
  else b ^^^ c ^^^ d

/-- The constant of a round. -/
def constant (round : Nat) : UInt32 :=
  if round < 20 then 0x5a827999
  else if round < 40 then 0x6ed9eba1
  else if round < 60 then 0x8f1bbcdc
  else 0xca62c1d6

/-- One round on a schedule word. -/
def step (round : Nat) (v : Chain) (w : UInt32) : Chain :=
  ⟨rotate 5 v.a + mix round v.b v.c v.d + v.e + constant round + w, v.a, rotate 30 v.b, v.c, v.d⟩

/-- The rounds from `round` on, one per schedule word. -/
def rounds : Nat → Chain → List UInt32 → Chain
  | _, v, [] => v
  | round, v, w :: ws => rounds (round + 1) (step round v w) ws

/-- The chaining words after one more block. -/
def compress (v : Chain) (block : Bytes) : Chain :=
  let r := rounds 0 v (schedule block)
  ⟨v.a + r.a, v.b + r.b, v.c + r.c, v.d + r.d, v.e + r.e⟩

/-- Takes in every whole block of the octets, and leaves the fewer than 64 octets after them. -/
def absorb (v : Chain) (bytes : Bytes) : Chain × Bytes :=
  if _h : (bytes.drop 63).isEmpty then (v, bytes)
  else absorb (compress v (bytes.take 64)) (bytes.drop 64)
termination_by bytes.length
decreasing_by
  simp only [List.isEmpty_iff, List.drop_eq_nil_iff] at _h
  simp only [List.length_drop]
  omega

/-- The octets of a 64 bit number, most significant first. -/
def octets64 (n : UInt64) : Bytes :=
  [56, 48, 40, 32, 24, 16, 8, 0].map fun (s : UInt64) => (n >>> s).toUInt8

/-- What follows a message of `n` octets in its last blocks: a one bit, the zeros that fill the
block up to its last eight octets, and the length in bits. -/
def padding (n : Nat) : Bytes :=
  0x80 :: List.replicate ((119 - n % 64) % 64) 0 ++ octets64 (UInt64.ofNat (8 * n))

/-- The octets of a word, most significant first. -/
def octets (w : UInt32) : Bytes :=
  [24, 16, 8, 0].map fun (s : UInt32) => (w >>> s).toUInt8

/-- The twenty octets of the chaining words. -/
def Chain.output (v : Chain) : Bytes :=
  octets v.a ++ octets v.b ++ octets v.c ++ octets v.d ++ octets v.e

/-- The digest of a message. -/
def digest (message : Bytes) : Bytes :=
  (absorb Chain.initial (message ++ padding message.length)).1.output

end UpgradeBridge.Sha1
