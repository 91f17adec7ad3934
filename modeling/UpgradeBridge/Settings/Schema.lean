/-
How settings are read off a TOML document.

Each section gives values to some of its fields, by key, or by position when it
is written as an array. What a document does not give keeps its default, and
what it gives beyond the known sections and fields is passed over. The first
value that does not fit, in the order of the document, is the one reported.
-/
import UpgradeBridge.Settings
import UpgradeBridge.Settings.Misfit
import UpgradeBridge.Toml.Value

namespace UpgradeBridge

namespace Settings.Schema

open Toml (Value Entries)

/-- What a value is told to be when it does not fit. -/
def found : Value → Misfit.Found
  | .string text => .string text
  | .integer value => .integer value
  | .float value => .float value
  | .boolean value => .boolean value
  | .datetime => .map
  | .array _ => .sequence
  | .table _ _ => .map
  | .tables _ => .sequence

/-- Reads a text. -/
def text : Value → Except Misfit String
  | .string text => .ok text
  | v => .error (.kind (found v) .string)

/-- Reads a truth value. -/
def boolean : Value → Except Misfit Bool
  | .boolean value => .ok value
  | v => .error (.kind (found v) .boolean)

/-- Reads a whole number that is not negative. -/
def count : Value → Except Misfit Nat
  | .integer (.ofNat value) => .ok value
  | .integer value => .error (.range value .count)
  | v => .error (.kind (found v) .count)

/-- The alphabet of a name. -/
def alphabetNamed (name : String) : Except Misfit Base64.Alphabet :=
  if name == "standard" then .ok .standard
  else if name == "url_safe" then .ok .urlSafe
  else .error (.choice name)

/-- What comes with a choice has to be an empty table or array. -/
def emptyPayload : Value → Except Misfit Unit
  | .table _ entries => if entries.isEmpty then .ok () else .error .payload
  | .array items => if items.isEmpty then .ok () else .error .payload
  | .tables elements => if elements.isEmpty then .ok () else .error .payloads
  | .string _ => .error (.scalarPayload "string")
  | .integer _ => .error (.scalarPayload "integer")
  | .float _ => .error (.scalarPayload "float")
  | .boolean _ => .error (.scalarPayload "boolean")
  | .datetime => .error (.scalarPayload "datetime")

/-- Reads an alphabet: its name, or a table with the name as its only key. -/
def alphabet : Value → Except Misfit Base64.Alphabet
  | .string name => alphabetNamed name
  | .table _ [] => .error .noChoice
  | .table _ [(name, payload)] => do
    let a ← alphabetNamed name
    emptyPayload payload
    .ok a
  | .table _ _ => .error .manyChoices
  | _ => .error .notAChoice

/-- A field of a section: its key, and how its value changes the section. -/
structure Field (α : Type) where
  key : String
  assign : α → Value → Except Misfit α

/-- A section: the name it is told by, and its fields in order. -/
structure Group (α : Type) where
  name : String
  fields : List (Field α)

/-- Gives the field of a key its value. -/
def Group.byKey {α : Type} (g : Group α) (settings : α) (entry : String × Value) :
    Except Misfit α :=
  match g.fields.find? fun f => f.key == entry.1 with
  | some f => f.assign settings entry.2
  | none => .ok settings

/-- Gives the fields their values by position. -/
def Group.byPosition {α : Type} (settings : α) : List (Field α) → List Value → Except Misfit α
  | f :: fields, v :: values => do byPosition (← f.assign settings v) fields values
  | _, _ => .ok settings

/-- Reads a section into settings that hold the defaults. A date or a time holds no known key. -/
def Group.read {α : Type} (g : Group α) (settings : α) : Value → Except Misfit α
  | .table _ entries => entries.foldlM g.byKey settings
  | .array items => Group.byPosition settings g.fields items
  | .tables elements =>
    Group.byPosition settings g.fields (elements.map fun entries => .table .header entries)
  | .datetime => .ok settings
  | v => .error (.kind (found v) (.group g.name))

/-- Where the server listens. -/
def listener : Group Listener where
  name := "ListenerConfig"
  fields := [⟨"bind_address", fun s v => do return { s with bindAddress := ← text v }⟩]

/-- The time limits. -/
def timeouts : Group Timeouts where
  name := "TimeoutConfig"
  fields := [
    ⟨"connect_secs", fun s v => do return { s with connectSecs := ← count v }⟩,
    ⟨"request_secs", fun s v => do return { s with requestSecs := ← count v }⟩]

/-- The handshakes. -/
def handshake : Group Handshake where
  name := "HandshakeConfig"
  fields := [
    ⟨"enabled", fun s v => do return { s with enabled := ← boolean v }⟩,
    ⟨"accept_alphabet", fun s v => do return { s with acceptAlphabet := ← alphabet v }⟩]

/-- The log. -/
def observability : Group Observability where
  name := "ObservabilityConfig"
  fields := [⟨"log_level", fun s v => do return { s with logLevel := ← text v }⟩]

/-- The sections of the settings. -/
def sections : Group Settings where
  name := "TunnelConfig"
  fields := [
    ⟨"listener", fun s v => do return { s with listener := ← listener.read {} v }⟩,
    ⟨"timeouts", fun s v => do return { s with timeouts := ← timeouts.read {} v }⟩,
    ⟨"handshake", fun s v => do return { s with handshake := ← handshake.read {} v }⟩,
    ⟨"observability", fun s v => do return { s with observability := ← observability.read {} v }⟩]

end Settings.Schema

/-- The settings of a document. -/
def Settings.ofDocument (root : Toml.Entries) : Except Misfit Settings :=
  root.foldlM Schema.sections.byKey {}

end UpgradeBridge
