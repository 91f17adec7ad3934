/-
Networks described by what is found at each address: nothing that can be
reached, a host that refuses connections, or a backend.

A host given as text is a socket address, or a name and a port after its last
colon. An address without a route fails at once, before any time limit is
looked at; a limit of zero is over before anything else can happen.
-/
import UpgradeBridge.Network
import UpgradeBridge.SocketAddress

namespace UpgradeBridge

/-- What is found at an address. -/
inductive Site
  | unreachable
  | refusing
  | listening
  deriving DecidableEq, Repr

/-- How a backend talks to a client. -/
structure Backend where
  /-- Sent as soon as a client is there. -/
  banner : Bytes := []
  /-- Sends back what it reads. -/
  echo : Bool := false
  /-- Sent when the client has closed. -/
  trailer : Bytes := []
  /-- Closes its side right after the banner, and only reads from then on. -/
  halfCloses : Bool := false
  /-- Breaks the connection off before anything is sent ahead. -/
  resets : Bool := false
  deriving DecidableEq, Repr

/-- What a client reads that sends some octets and closes. -/
def Backend.reply (b : Backend) (incoming : Bytes) : Bytes :=
  if b.halfCloses then b.banner
  else b.banner ++ (if b.echo then incoming else []) ++ b.trailer

namespace Network

/-- The number of a port, which may have a plus sign in front. -/
def port? (cs : List Char) : Option UInt16 :=
  let cs := match cs with
    | '+' :: rest => rest
    | _ => cs
  match SocketAddress.number 10 65535 cs with
  | some (port, []) => some (UInt16.ofNat port)
  | _ => none

/-- The address of a name that is known: an IPv4 address or the host itself. -/
def known? (name : String) : Option Ipv4 :=
  if name == "localhost" then some ⟨127, 0, 0, 1⟩
  else
    match SocketAddress.ipv4 name.toList with
    | some (host, []) => some host
    | _ => none

/-- The characters before and after the last colon. -/
def splitPort (cs : List Char) : Option (List Char × List Char) :=
  let port := (cs.reverse.takeWhile (· != ':')).reverse
  if port.length < cs.length then some (cs.take (cs.length - port.length - 1), port) else none

/-- The name and the port of a text. -/
def nameAndPort (text : String) : Except IoError (String × UInt16) :=
  match splitPort text.toList with
  | none => .error .invalidSocketAddress
  | some (name, port) =>
    match port? port with
    | none => .error .invalidPort
    | some port => .ok (String.ofList name, port)

/-- The address of a name and a port. -/
def resolve (text : String) : Except IoError SocketAddress := do
  let (name, port) ← nameAndPort text
  match known? name with
  | none => .error .unresolved
  | some host => .ok (.v4 host port)

/-- How a dial of an address ends. -/
def dialSite (site : Site) (timeout : Nat) : Dial :=
  match site with
  | .unreachable => .failed .networkUnreachable
  | .refusing => if timeout = 0 then .timedOut else .failed .connectionRefused
  | .listening => if timeout = 0 then .timedOut else .connected

/-- How a dial of a host given as text ends. -/
def dialText (sites : SocketAddress → Site) (text : String) (timeout : Nat) : Dial :=
  match SocketAddress.ofString? text with
  | some address => dialSite (sites address) timeout
  | none =>
    if timeout = 0 then .timedOut
    else
      match resolve text with
      | .error error => .failed error
      | .ok address => dialSite (sites address) timeout

/-- The network with some sites, whose listening hosts are backends of one kind. -/
def ofSites (sites : SocketAddress → Site) (backend : Backend) : Network where
  dial := dialText sites
  forward _ := if backend.resets then .error .connectionReset else .ok ()
  relay connection :=
    if connection.closes then some ⟨connection.incoming.length, backend.reply connection.incoming⟩
    else none

end Network

end UpgradeBridge
