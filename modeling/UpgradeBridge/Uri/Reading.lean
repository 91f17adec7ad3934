/-
Which texts are request targets.

A text of at most 65534 octets is read as a path when it starts with `/` or is
`*`; with a scheme in front it needs an authority and may go on with a path;
any other text has to be an authority from end to end.

An authority is checked one character at a time by `Scan.step`. Colons and
percent signs are counted from the last `@` or `]` on, so that user information
may hold any number of both and an address in brackets its own colons.
-/
import UpgradeBridge.Uri
import UpgradeBridge.Text.Ascii

namespace UpgradeBridge

namespace Authority

/-- A character that may stand in an authority; a percent sign is looked at on its own. -/
def isMember (c : Char) : Bool :=
  c.isAlphanum || "!$&'()*+,-.:;=@[]_~".toList.contains c

/-- A character that ends an authority. -/
def isEnd (c : Char) : Bool :=
  c == '/' || c == '?' || c == '#'

/-- What was seen of an authority so far. -/
structure Scan where
  /-- The colons since the last `@` or `]`. -/
  colons : Nat := 0
  /-- A `[` was seen. -/
  opened : Bool := false
  /-- A `]` was seen. -/
  closed : Bool := false
  /-- A percent sign was seen since the last `@` or `]`. -/
  percent : Bool := false
  /-- The last character was an `@`. -/
  atSign : Bool := false
  deriving DecidableEq, Repr

/-- The most colons that may stand together without an `@` or `]` after them. -/
def maxColons : Nat := 8

/-- Takes in one character, unless an authority cannot have it there. -/
def Scan.step (s : Scan) (c : Char) : Option Scan :=
  if c == ':' then
    if s.colons ≥ maxColons then none else some { s with colons := s.colons + 1, atSign := false }
  else if c == '[' then
    if s.percent || s.opened then none else some { s with opened := true, atSign := false }
  else if c == ']' then
    if !s.opened || s.closed then none
    else some { s with closed := true, colons := 0, percent := false, atSign := false }
  else if c == '@' then
    some { s with colons := 0, percent := false, atSign := true }
  else if c == '%' then
    some { s with percent := true, atSign := false }
  else if isMember c then
    some { s with atSign := false }
  else none

/-- An authority may end here: brackets are paired, at most one colon stands before a port, the
host holds no percent sign and something follows the last `@`. -/
def Scan.mayEnd (s : Scan) : Bool :=
  s.opened == s.closed && s.colons ≤ 1 && !s.atSign && !s.percent

/-- These characters are an authority. -/
def accepts (cs : List Char) : Bool :=
  match cs.foldlM Scan.step {} with
  | some s => s.mayEnd
  | none => false

end Authority

namespace Path

/-- A character that may stand in a path. -/
def isPathChar (c : Char) : Bool :=
  let n := c.toNat
  n == 0x21 || n == 0x22 || (0x24 ≤ n && n ≤ 0x3b) || n == 0x3d || (0x40 ≤ n && n ≤ 0x5f) ||
    0x61 ≤ n

/-- A character that may stand in a query. -/
def isQueryChar (c : Char) : Bool :=
  let n := c.toNat
  n == 0x21 || (0x24 ≤ n && n ≤ 0x3b) || n == 0x3d || 0x3f ≤ n

/-- Reads a path, its query, and a fragment that is passed over. -/
def read? (cs : List Char) : Option Path :=
  let written := cs.takeWhile fun c => c != '?' && c != '#'
  if !written.all isPathChar then none
  else
    match cs.dropWhile fun c => c != '?' && c != '#' with
    | '?' :: rest =>
      let query := rest.takeWhile (· != '#')
      if query.all isQueryChar then some ⟨String.ofList written, some (String.ofList query)⟩
      else none
    | _ => some ⟨String.ofList written, none⟩

end Path

namespace Uri

/-- The most octets of a target. -/
def maxLength : Nat := 65534

/-- The most characters of a scheme. -/
def maxScheme : Nat := 64

/-- A character that may stand in a scheme. -/
def isSchemeChar (c : Char) : Bool :=
  c.isAlphanum || c == '+' || c == '-' || c == '.' || c == '~'

/-- What a text says about its scheme. -/
inductive Scheme
  /-- There is none. -/
  | absent
  /-- There is one that no target may have. -/
  | tooLong
  /-- There is one, and this follows it. -/
  | found (name : String) (rest : List Char)

/-- Looks for a scheme: characters of a scheme, then `://`. The schemes `http` and `https` are
written in lower case whatever their case was. -/
def scheme (cs : List Char) : Scheme :=
  let name := cs.takeWhile isSchemeChar
  match cs.dropWhile isSchemeChar with
  | ':' :: '/' :: '/' :: rest =>
    let lower := name.map Char.toLower
    if lower == "http".toList || lower == "https".toList then .found (String.ofList lower) rest
    else if name.length > maxScheme then .tooLong
    else .found (String.ofList name) rest
  | _ => .absent

/-- Reads an authority with nothing after it. -/
def readAuthority? (cs : List Char) : Option Uri :=
  if Authority.accepts cs then some (.authority ⟨String.ofList cs⟩) else none

/-- Reads the characters of a target. -/
def readChars? : List Char → Option Uri
  | [] => none
  | ['*'] => some (.path ⟨"*", none⟩)
  | '/' :: rest => (Path.read? ('/' :: rest)).map .path
  | cs =>
    match scheme cs with
    | .absent => readAuthority? cs
    | .tooLong => none
    | .found name rest =>
      let host := rest.takeWhile fun c => !Authority.isEnd c
      if host.isEmpty || !Authority.accepts host then none
      else
        (Path.read? (rest.dropWhile fun c => !Authority.isEnd c)).map
          (.absolute name ⟨String.ofList host⟩)

/-- Reads a target. -/
def read? (text : String) : Option Uri :=
  if text.utf8ByteSize > maxLength then none else readChars? text.toList

end Uri

end UpgradeBridge
