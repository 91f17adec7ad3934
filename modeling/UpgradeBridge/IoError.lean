/-
Errors of files, addresses and connections: those the operating system numbers,
and those found before it is asked.
-/
import UpgradeBridge.Text.Quoted

namespace UpgradeBridge

/-- An error of input or output. -/
inductive IoError
  | notFound
  | permissionDenied
  | isADirectory
  | brokenPipe
  | addressInUse
  | addressNotAvailable
  | networkUnreachable
  | connectionReset
  | connectionTimedOut
  | connectionRefused
  /-- A text holds octets that are not UTF-8. -/
  | invalidUtf8
  /-- A text that should name a host and a port has no colon. -/
  | invalidSocketAddress
  /-- What follows the last colon of an address is not a port number. -/
  | invalidPort
  /-- The host of an address has no address that is known. -/
  | unresolved
  /-- An error known by its text only. -/
  | other (text : String)
  deriving DecidableEq, Repr

namespace IoError

/-- How an error of the operating system is told: its number, its kind and its text. -/
structure Native where
  number : Nat
  kind : String
  text : String

/-- The operating system's account of an error, if it is one of its errors. -/
def native? : IoError → Option Native
  | notFound => some ⟨2, "NotFound", "No such file or directory"⟩
  | permissionDenied => some ⟨13, "PermissionDenied", "Permission denied"⟩
  | isADirectory => some ⟨21, "IsADirectory", "Is a directory"⟩
  | brokenPipe => some ⟨32, "BrokenPipe", "Broken pipe"⟩
  | addressInUse => some ⟨98, "AddrInUse", "Address already in use"⟩
  | addressNotAvailable => some ⟨99, "AddrNotAvailable", "Cannot assign requested address"⟩
  | networkUnreachable => some ⟨101, "NetworkUnreachable", "Network is unreachable"⟩
  | connectionReset => some ⟨104, "ConnectionReset", "Connection reset by peer"⟩
  | connectionTimedOut => some ⟨110, "TimedOut", "Connection timed out"⟩
  | connectionRefused => some ⟨111, "ConnectionRefused", "Connection refused"⟩
  | _ => none

/-- The errors that the operating system numbers. -/
def numbered : List IoError :=
  [notFound, permissionDenied, isADirectory, brokenPipe, addressInUse, addressNotAvailable,
    networkUnreachable, connectionReset, connectionTimedOut, connectionRefused]

/-- The error with a number of the operating system. -/
def ofNumber? (number : Nat) : Option IoError :=
  numbered.find? fun e => e.native?.any (·.number == number)

/-- The text of an error found before the operating system was asked. -/
def plainText : IoError → String
  | invalidUtf8 => "stream did not contain valid UTF-8"
  | invalidSocketAddress => "invalid socket address"
  | invalidPort => "invalid port value"
  | unresolved => "failed to lookup address information: Temporary failure in name resolution"
  | other text => text
  | _ => ""

/-- The kind of an error found before the operating system was asked. -/
def plainKind : IoError → String
  | invalidUtf8 => "InvalidData"
  | invalidSocketAddress | invalidPort => "InvalidInput"
  | _ => "Uncategorized"

/-- The text of an error. -/
def message (e : IoError) : String :=
  match e.native? with
  | some n => s!"{n.text} (os error {n.number})"
  | none => e.plainText

/-- The full account of an error, as it is given to whoever started the program. -/
def details (e : IoError) : String :=
  match e.native? with
  | some n => s!"Os \x7b code: {n.number}, kind: {n.kind}, message: {quote n.text} \x7d"
  | none => s!"Error \x7b kind: {e.plainKind}, message: {quote e.plainText} \x7d"

end IoError

end UpgradeBridge
