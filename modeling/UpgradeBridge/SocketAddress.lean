/-
Socket addresses, an IP address with a port, and which texts spell one.

An IPv4 address is four decimal numbers without leading zeros. An IPv6 address
stands in brackets: up to eight groups of hexadecimal digits, of which `::` may
leave out one run of zeros and an IPv4 address may be the last two, and after
them the number of a scope. Ports may have leading zeros.
-/
import UpgradeBridge.Text.Digit
import UpgradeBridge.Text.Reads

namespace UpgradeBridge

/-- An IPv4 address. -/
structure Ipv4 where
  a : UInt8
  b : UInt8
  c : UInt8
  d : UInt8
  deriving DecidableEq, Repr

/-- An IPv6 address: its eight groups. -/
structure Ipv6 where
  groups : List UInt16
  deriving DecidableEq, Repr

/-- An address to listen at or to connect to. -/
inductive SocketAddress
  | v4 (host : Ipv4) (port : UInt16)
  | v6 (host : Ipv6) (scope : UInt32) (port : UInt16)
  deriving DecidableEq, Repr

namespace SocketAddress

/-- The longest run of digits: how many there are, their value, and what follows. -/
def digits (base : Nat) (count value : Nat) : List Char → Nat × Nat × List Char
  | [] => (count, value, [])
  | c :: rest =>
    match digit? base c with
    | some d => digits base (count + 1) (value * base + d) rest
    | none => (count, value, c :: rest)

/-- Reads a number of at least one digit that is no larger than a bound. -/
def number (base bound : Nat) : Reads Nat := fun cs =>
  let (count, value, rest) := digits base 0 0 cs
  if count = 0 || value > bound then none else some (value, rest)

/-- Reads one number of an IPv4 address. -/
def octet : Reads UInt8 := fun cs =>
  let (count, value, rest) := digits 10 0 0 cs
  if count = 0 || count > 3 || value > 255 || (count > 1 && cs.head? == some '0') then none
  else some (UInt8.ofNat value, rest)

/-- Reads one group of an IPv6 address. -/
def group : Reads UInt16 := fun cs =>
  let (count, value, rest) := digits 16 0 0 cs
  if count = 0 || count > 4 then none else some (UInt16.ofNat value, rest)

/-- Reads a given character. -/
def mark (c : Char) : Reads Unit
  | [] => none
  | d :: rest => if d == c then some ((), rest) else none

/-- Reads an IPv4 address. -/
def ipv4 : Reads Ipv4 := fun cs => do
  let (a, cs) ← octet cs
  let ((), cs) ← mark '.' cs
  let (b, cs) ← octet cs
  let ((), cs) ← mark '.' cs
  let (c, cs) ← octet cs
  let ((), cs) ← mark '.' cs
  let (d, cs) ← octet cs
  some (⟨a, b, c, d⟩, cs)

/-- The two groups that an IPv4 address stands for. -/
def Ipv4.asGroups (h : Ipv4) : List UInt16 :=
  [h.a.toUInt16 <<< 8 ||| h.b.toUInt16, h.c.toUInt16 <<< 8 ||| h.d.toUInt16]

/-- Reads what stands before something, unless it is the first of its kind. -/
def separated {α : Type} (isFirst : Bool) (item : Reads α) : Reads α := fun cs =>
  if isFirst then item cs
  else do
    let ((), cs) ← mark ':' cs
    item cs

/-- Reads groups with colons between them, at most `room` of them, and tells whether an IPv4 address
was the last two. -/
def groups : (room : Nat) → (isFirst : Bool) → List Char → List UInt16 × Bool × List Char
  | 0, _, cs => ([], false, cs)
  | room + 1, isFirst, cs =>
    match if room = 0 then none else separated isFirst ipv4 cs with
    | some (host, rest) => (Ipv4.asGroups host, true, rest)
    | none =>
      match separated isFirst group cs with
      | some (g, rest) =>
        let (gs, embedded, rest) := groups room false rest
        (g :: gs, embedded, rest)
      | none => ([], false, cs)

/-- Reads an IPv6 address. The groups that `::` leaves out are zeros, and at least one. -/
def ipv6 : Reads Ipv6 := fun cs =>
  let (front, embedded, cs) := groups 8 true cs
  if front.length = 8 then some (⟨front⟩, cs)
  else if embedded then none
  else do
    let ((), cs) ← mark ':' cs
    let ((), cs) ← mark ':' cs
    let (back, _, cs) := groups (7 - front.length) true cs
    some (⟨front ++ List.replicate (8 - front.length - back.length) 0 ++ back⟩, cs)

/-- Reads a colon and a port. -/
def portNumber : Reads UInt16 := fun cs => do
  let ((), cs) ← mark ':' cs
  let (port, cs) ← number 10 65535 cs
  some (UInt16.ofNat port, cs)

/-- Reads a percent sign and a scope, which is 0 if there is none. -/
def scopeNumber (cs : List Char) : UInt32 × List Char :=
  match mark '%' cs with
  | some ((), rest) =>
    match number 10 4294967295 rest with
    | some (scope, rest) => (UInt32.ofNat scope, rest)
    | none => (0, cs)
  | none => (0, cs)

/-- Reads an IPv4 address with a port. -/
def readV4 : Reads SocketAddress := fun cs => do
  let (host, cs) ← ipv4 cs
  let (port, cs) ← portNumber cs
  some (.v4 host port, cs)

/-- Reads an IPv6 address in brackets with a port. -/
def readV6 : Reads SocketAddress := fun cs => do
  let ((), cs) ← mark '[' cs
  let (host, cs) ← ipv6 cs
  let (scope, cs) := scopeNumber cs
  let ((), cs) ← mark ']' cs
  let (port, cs) ← portNumber cs
  some (.v6 host scope port, cs)

/-- The address that a text spells from end to end. -/
def ofString? (text : String) : Option SocketAddress :=
  match (readV4 text.toList).orElse fun _ => readV6 text.toList with
  | some (address, []) => some address
  | _ => none

/-- An address that every host has: one of its loopback, or the one that stands for all. -/
def isLocal : SocketAddress → Bool
  | v4 host _ => host.a == 127 || host == ⟨0, 0, 0, 0⟩
  | v6 host _ _ => host.groups == [0, 0, 0, 0, 0, 0, 0, 1] || host.groups.all (· == 0)

end SocketAddress

/-- The four numbers with points between them. -/
def Ipv4.text (h : Ipv4) : String :=
  s!"{h.a}.{h.b}.{h.c}.{h.d}"

namespace Ipv6

/-- A group in hexadecimal digits. -/
def groupText (g : UInt16) : String :=
  String.ofList (Nat.toDigits 16 g.toNat)

/-- How many zero groups stand at the front. -/
def zeros (gs : List UInt16) : Nat :=
  (gs.takeWhile (· == 0)).length

/-- Where the first of the longest runs of zeros starts, and how long it is. -/
def longestZeros (index : Nat) (best : Nat × Nat) : List UInt16 → Nat × Nat
  | [] => best
  | g :: rest =>
    let run := zeros (g :: rest)
    longestZeros (index + 1) (if run > best.2 then (index, run) else best) rest

/-- The groups with colons between them. The longest run of zeros is left out if it is longer than
one group; an IPv4 address within the address is written as such. -/
def text (h : Ipv6) : String :=
  match h.groups with
  | [0, 0, 0, 0, 0, 0xffff, x, y] =>
    "::ffff:" ++ Ipv4.text ⟨(x >>> 8).toUInt8, x.toUInt8, (y >>> 8).toUInt8, y.toUInt8⟩
  | gs =>
    let (start, run) := longestZeros 0 (0, 0) gs
    let join (part : List UInt16) := ":".intercalate (part.map groupText)
    if run > 1 then join (gs.take start) ++ "::" ++ join (gs.drop (start + run)) else join gs

end Ipv6

/-- The address as it is written. -/
def SocketAddress.text : SocketAddress → String
  | v4 host port => s!"{host.text}:{port}"
  | v6 host scope port =>
    if scope == 0 then s!"[{host.text}]:{port}" else s!"[{host.text}%{scope}]:{port}"

end UpgradeBridge
