/-
Quoted text, as error messages show what was given to them: between quotation
marks, with what cannot be seen written out.

A quotation mark, a backslash, a line feed, a carriage return, a tab and NUL
have escapes of their own. Characters that are not printable or that would join
the character before them are written by their code point.
-/
import UpgradeBridge.Text.Unprintable
import UpgradeBridge.Text.GraphemeExtend

namespace UpgradeBridge

namespace Quoted

/-- The digits of a number in base 16, in lower case. -/
def hex (n : Nat) : List Char :=
  Nat.toDigits 16 n

/-- The character is written by its code point. -/
def isHidden (c : Char) : Bool :=
  if c.toNat < 0x7f then c.toNat < 0x20
  else CodePoints.graphemeExtend.holds c || CodePoints.unprintable.holds c ||
    CodePoints.fillers.holds c

/-- How a character is written between quotation marks. -/
def escape (c : Char) : List Char :=
  if c == '\x00' then ['\\', '0']
  else if c == '\t' then ['\\', 't']
  else if c == '\r' then ['\\', 'r']
  else if c == '\n' then ['\\', 'n']
  else if c == '"' || c == '\\' then ['\\', c]
  else if isHidden c then '\\' :: 'u' :: '\x7b' :: hex c.toNat ++ ['\x7d']
  else [c]

end Quoted

/-- The text between quotation marks. -/
def quote (text : String) : String :=
  String.ofList ('"' :: text.toList.flatMap Quoted.escape ++ ['"'])

end UpgradeBridge
