/-
Identifiers for requests that come without one: 122 random bits, written as a
UUID of version 4.
-/
import UpgradeBridge.Text.Ascii

namespace UpgradeBridge.RequestId

/-- How many random octets an identifier takes. -/
def size : Nat := 16

/-- The two hexadecimal digits of an octet. -/
def hexByte (b : UInt8) : List Char :=
  [Nat.digitChar (b.toNat / 16), Nat.digitChar (b.toNat % 16)]

/-- Marks the seventh octet with the version, and the ninth with the variant. -/
def mark (index : Nat) (b : UInt8) : UInt8 :=
  if index = 6 then b &&& 0x0f ||| 0x40
  else if index = 8 then b &&& 0x3f ||| 0x80
  else b

/-- The identifier of some random octets: a hyphen stands before the fifth, seventh, ninth and
eleventh. -/
def text (random : Bytes) : String :=
  String.ofList <| random.zipIdx.flatMap fun (b, index) =>
    (if [4, 6, 8, 10].contains index then ['-'] else []) ++ hexByte (mark index b)

end UpgradeBridge.RequestId
