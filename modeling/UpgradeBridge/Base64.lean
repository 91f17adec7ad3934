/-
Base64 with padding, RFC 4648: three octets make four characters, a final group
of one or two octets is filled up with `=`. The two alphabets differ in the
characters of 62 and 63 only.
-/
import UpgradeBridge.Text.Ascii

namespace UpgradeBridge.Base64

/-- The characters that stand for 62 and 63. -/
inductive Alphabet
  /-- With `+` and `/`. -/
  | standard
  /-- With `-` and `_`. -/
  | urlSafe
  deriving DecidableEq, Repr, Inhabited

/-- The sixty-four characters of an alphabet, in the order of their values. -/
def Alphabet.characters (alphabet : Alphabet) : List Char :=
  "ABCDEFGHIJKLMNOPQRSTUVWXYZabcdefghijklmnopqrstuvwxyz0123456789".toList ++
    match alphabet with
    | .standard => ['+', '/']
    | .urlSafe => ['-', '_']

/-- The character of a value below 64. -/
def Alphabet.character (alphabet : Alphabet) (value : UInt8) : Char :=
  alphabet.characters.getD value.toNat '='

/-- The value that a character stands for. -/
def Alphabet.value? (alphabet : Alphabet) (c : Char) : Option UInt8 :=
  (alphabet.characters.idxOf? c).map UInt8.ofNat

/-- The characters of a string of octets. -/
def encode (alphabet : Alphabet) : Bytes → List Char
  | a :: b :: c :: rest =>
    alphabet.character (a >>> 2) ::
      alphabet.character ((a &&& 0x03) <<< 4 ||| b >>> 4) ::
      alphabet.character ((b &&& 0x0f) <<< 2 ||| c >>> 6) ::
      alphabet.character (c &&& 0x3f) :: encode alphabet rest
  | [a, b] =>
    [alphabet.character (a >>> 2), alphabet.character ((a &&& 0x03) <<< 4 ||| b >>> 4),
      alphabet.character ((b &&& 0x0f) <<< 2), '=']
  | [a] => [alphabet.character (a >>> 2), alphabet.character ((a &&& 0x03) <<< 4), '=', '=']
  | [] => []

/-- The octets that padded characters stand for; none for a text that is not padded Base64. -/
def decode? (alphabet : Alphabet) : List Char → Option Bytes
  | [] => some []
  | [w, x, '=', '='] => do
    let w ← alphabet.value? w
    let x ← alphabet.value? x
    some [w <<< 2 ||| x >>> 4]
  | [w, x, y, '='] => do
    let w ← alphabet.value? w
    let x ← alphabet.value? x
    let y ← alphabet.value? y
    some [w <<< 2 ||| x >>> 4, x <<< 4 ||| y >>> 2]
  | w :: x :: y :: z :: rest => do
    let w ← alphabet.value? w
    let x ← alphabet.value? x
    let y ← alphabet.value? y
    let z ← alphabet.value? z
    let bytes ← decode? alphabet rest
    some ((w <<< 2 ||| x >>> 4) :: (x <<< 4 ||| y >>> 2) :: (y <<< 6 ||| z) :: bytes)
  | _ => none

end UpgradeBridge.Base64
