/-
The head of a request as a client sends it: a line with the method, the target
and the version, a line for each header field, and an empty line.

A line ends with a line feed, which a carriage return may precede. Empty lines
ahead of the first one are passed over. Octets come in piece by piece, so a head
that is not complete is told apart from one that is wrong.
-/
import UpgradeBridge.Request
import UpgradeBridge.Uri.Reading

namespace UpgradeBridge.Http1

/-- The head of a request. Its request has no body yet. -/
structure RequestHead where
  request : Request
  /-- The version is 1.1, and not 1.0. -/
  isHttp11 : Bool
  deriving DecidableEq, Repr

/-- What octets come to that were received from a client. -/
inductive Reading
  /-- The head is not complete. -/
  | incomplete
  /-- No head starts like this. -/
  | malformed
  /-- A head, and the octets after it. -/
  | complete (head : RequestHead) (rest : Bytes)
  deriving DecidableEq, Repr

namespace RequestHead

/-- A line that is kept backwards, without the carriage return at its end. -/
def finished : Bytes → Bytes
  | 0x0d :: line => line.reverse
  | line => line.reverse

/-- The lines up to the first empty one, and the octets after it, given the octets of the current
line and the lines before it, both backwards. -/
def lines? (line : Bytes) (before : List Bytes) : Bytes → Option (List Bytes × Bytes)
  | [] => none
  | b :: rest =>
    if b != 0x0a then lines? (b :: line) before rest
    else if !(finished line).isEmpty then lines? [] (finished line :: before) rest
    else if before.isEmpty then lines? [] [] rest
    else some (before.reverse, rest)

/-- The parts of a line between its blanks. -/
def words (line : Bytes) : List Bytes :=
  line.splitOn 0x20

/-- Reads a version, and tells whether it is 1.1. -/
def version? (word : Bytes) : Option Bool :=
  if word = utf8 "HTTP/1.1" then some true
  else if word = utf8 "HTTP/1.0" then some false
  else none

/-- Reads the first line. -/
def ofFirstLine? (line : Bytes) : Option RequestHead :=
  match words line with
  | [method, target, version] => do
    let method ← Method.ofString? (← ofUtf8? method)
    let uri ← Uri.read? (← ofUtf8? target)
    let isHttp11 ← version? version
    some { request := { method, uri }, isHttp11 }
  | _ => none

/-- A blank or a tab. -/
def isBlank (b : UInt8) : Bool :=
  b == 0x20 || b == 0x09

/-- The octets without the blanks around them. -/
def trim (bytes : Bytes) : Bytes :=
  ((bytes.dropWhile isBlank).reverse.dropWhile isBlank).reverse

/-- Reads the line of a header field. -/
def field? (line : Bytes) : Option (Header.Name × Header.Value) :=
  match line.span (· != 0x3a) with
  | (name, _ :: value) => do
    let name ← Header.Name.ofString? (← ofUtf8? name)
    let value ← Header.Value.ofBytes? (trim value)
    some (name, value)
  | _ => none

/-- Adds the line of a header field. -/
def addField (head : RequestHead) (line : Bytes) : Option RequestHead := do
  let (name, value) ← field? line
  let headers := head.request.headers.append name value
  some { head with request := { head.request with headers } }

/-- Reads the lines of a head. -/
def ofLines? : List Bytes → Option RequestHead
  | [] => none
  | first :: rest => do
    let head ← ofFirstLine? first
    rest.foldlM addField head

/-- The most octets of a head. -/
def maxLength : Nat := 417792

/-- Reads the octets received so far. -/
def read (received : Bytes) : Reading :=
  match lines? [] [] received with
  | none => if received.length < maxLength then .incomplete else .malformed
  | some (lines, rest) =>
    match ofLines? lines with
    | some head => .complete head rest
    | none => .malformed

/-- The last value of a header name is a word, in any case. -/
def holds (head : RequestHead) (name : Header.Name) (word : String) : Bool :=
  match head.request.headers.last? name with
  | some value => Ascii.sameIgnoringCase value.bytes (utf8 word)
  | none => false

/-- A body follows the head. -/
def hasBody (head : RequestHead) : Bool :=
  head.request.headers.contains Header.Name.transferEncoding ||
    match head.request.headers.last? Header.Name.contentLength with
    | some value => value.bytes.any (· != 0x30)
    | none => false

/-- Another request may follow on the connection. Bodies are not read, so none follows a request
with a body. -/
def mayFollow (head : RequestHead) : Bool :=
  !head.hasBody &&
    if head.isHttp11 then !head.holds Header.Name.connection "close"
    else head.holds Header.Name.connection "keep-alive"

end RequestHead

end UpgradeBridge.Http1
