/-
Header fields: names without case, values of octets, and the multimap of both
that a request or a response carries.

Only the values of each name and their order count, which `values` gives; the
order in which different names came does not.
-/
import UpgradeBridge.Text.Ascii

namespace UpgradeBridge

namespace Header

/-- A character of a token: a letter, a digit or one of the marks that tokens admit. -/
def isTokenChar (c : Char) : Bool :=
  c.isAlphanum || "!#$%&'*+-.^_|~".toList.contains c || c == Char.ofNat 0x60

/-- A header name, in lower case: spellings that differ in case are one name. -/
structure Name where
  text : String
  deriving DecidableEq, Repr

namespace Name

/-- The name that a text spells; none if the text is not a token. -/
def ofString? (text : String) : Option Name :=
  if text.toList.all isTokenChar && !text.isEmpty then some ⟨Ascii.lower text⟩ else none

def connection : Name := ⟨"connection"⟩
def contentLength : Name := ⟨"content-length"⟩
def contentType : Name := ⟨"content-type"⟩
def date : Name := ⟨"date"⟩
def host : Name := ⟨"host"⟩
/-- The padding a backend may add; it never reaches a WebSocket client. -/
def padding : Name := ⟨"padding"⟩
def secWebSocketAccept : Name := ⟨"sec-websocket-accept"⟩
def secWebSocketKey : Name := ⟨"sec-websocket-key"⟩
def transferEncoding : Name := ⟨"transfer-encoding"⟩
def upgrade : Name := ⟨"upgrade"⟩
/-- The header in which a client names the host to be connected to. -/
def xConnectHost : Name := ⟨"x-connect-host"⟩
def xRequestId : Name := ⟨"x-request-id"⟩

end Name

/-- An octet that a header value may hold: anything but control characters, tabs excepted. -/
def isValueByte (b : UInt8) : Bool :=
  (0x20 ≤ b && b != 0x7f) || b == 0x09

/-- A header value. -/
structure Value where
  bytes : Bytes
  legal : bytes.all isValueByte = true
  deriving DecidableEq, Repr

namespace Value

/-- The value with these octets, if a value may hold them all. -/
def ofBytes? (bytes : Bytes) : Option Value :=
  if h : bytes.all isValueByte = true then some ⟨bytes, h⟩ else none

/-- The value of a text, if a value may hold its octets. -/
def ofString? (text : String) : Option Value :=
  ofBytes? (utf8 text)

/-- The text of a value of visible ASCII characters, blanks and tabs. -/
def text? (v : Value) : Option String :=
  Ascii.visible? v.bytes

/-- The value `websocket`. -/
def websocket : Value := ⟨[0x77, 0x65, 0x62, 0x73, 0x6f, 0x63, 0x6b, 0x65, 0x74], by decide⟩

/-- The value `Upgrade`. -/
def upgrade : Value := ⟨[0x55, 0x70, 0x67, 0x72, 0x61, 0x64, 0x65], by decide⟩

end Value

end Header

/-- Header fields in the order in which they were added. -/
structure Headers where
  entries : List (Header.Name × Header.Value) := []
  deriving DecidableEq, Repr

namespace Headers

open Header

instance : EmptyCollection Headers := ⟨{}⟩

instance : Inhabited Headers := ⟨∅⟩

/-- The values of a name, oldest first. -/
def values (h : Headers) (name : Name) : List Value :=
  h.entries.filterMap fun e => if e.1 = name then some e.2 else none

/-- The name has a value. -/
def contains (h : Headers) (name : Name) : Bool :=
  h.entries.any fun e => e.1 = name

/-- The newest value of a name. -/
def last? (h : Headers) (name : Name) : Option Value :=
  (h.values name).getLast?

/-- Takes away every value of a name. -/
def remove (h : Headers) (name : Name) : Headers :=
  ⟨h.entries.filter fun e => e.1 ≠ name⟩

/-- Adds a value after those that its name has. -/
def append (h : Headers) (name : Name) (value : Value) : Headers :=
  ⟨h.entries ++ [(name, value)]⟩

/-- Makes a value the only one of its name. -/
def insert (h : Headers) (name : Name) (value : Value) : Headers :=
  (h.remove name).append name value

/-- The entries by name, the values of one name in their order. -/
def sorted (h : Headers) : List (Name × Value) :=
  h.entries.mergeSort fun x y => x.1.text ≤ y.1.text

/-- A change to header fields. -/
inductive Edit
  /-- Makes a value the only one of its name. -/
  | set (name : Name) (value : Value)
  /-- Adds a value to those of a name. -/
  | append (name : Name) (value : Value)
  /-- Takes away every value of a name. -/
  | remove (name : Name)
  deriving DecidableEq, Repr

/-- The name that an edit is about. -/
def Edit.name : Edit → Name
  | .set name _ => name
  | .append name _ => name
  | .remove name => name

/-- The header fields after an edit. -/
def Edit.apply (h : Headers) : Edit → Headers
  | .set name value => h.insert name value
  | .append name value => h.append name value
  | .remove name => h.remove name

end Headers

end UpgradeBridge
