/-
Octet strings and the ASCII rules that HTTP texts follow.

A text becomes octets by UTF-8 (`utf8`); octets become a text when every one of
them is a visible ASCII character, a blank or a tab (`visible?`). Case folds
touch the letters `A` to `Z` only.
-/
namespace UpgradeBridge

/-- A string of octets. -/
abbrev Bytes := List UInt8

/-- The UTF-8 octets of a text. -/
def utf8 (text : String) : Bytes :=
  text.toList.flatMap String.utf8EncodeChar

/-- The text whose UTF-8 octets these are. -/
def ofUtf8? (bytes : Bytes) : Option String :=
  String.fromUTF8? (ByteArray.mk bytes.toArray)

namespace Ascii

/-- The octet with an upper case letter turned into its lower case one. -/
def lowerByte (b : UInt8) : UInt8 :=
  if 0x41 ≤ b && b ≤ 0x5a then b + 0x20 else b

/-- The text with its upper case ASCII letters turned into lower case ones. -/
def lower (text : String) : String :=
  String.ofList (text.toList.map Char.toLower)

/-- Two octet strings that differ at most in the case of ASCII letters. -/
def sameIgnoringCase (x y : Bytes) : Bool :=
  x.map lowerByte == y.map lowerByte

/-- A visible character, a blank or a tab. -/
def isVisible (b : UInt8) : Bool :=
  (0x20 ≤ b && b ≤ 0x7e) || b == 0x09

/-- The text of octets that are all visible ASCII, blanks or tabs; none for any other string. -/
def visible? (bytes : Bytes) : Option String :=
  if bytes.all isVisible then some (String.ofList (bytes.map fun b => Char.ofNat b.toNat)) else none

end Ascii

end UpgradeBridge
