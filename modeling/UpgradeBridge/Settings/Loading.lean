/-
Settings from the octets of a file. Each stage is reached only when the one
before it has succeeded: the octets are UTF-8, the text is a TOML document, the
document fits the settings, and nothing is wrong with them.
-/
import UpgradeBridge.IoError
import UpgradeBridge.Settings.Schema
import UpgradeBridge.Settings.Validation
import UpgradeBridge.Toml.Document

namespace UpgradeBridge

/-- Why settings could not be loaded. -/
inductive SettingsError
  /-- The file could not be read. -/
  | io (error : IoError)
  /-- The text is no TOML document. -/
  | notToml
  /-- The document does not fit the settings. -/
  | misfit (misfit : Misfit)
  /-- The settings are not valid. -/
  | invalid (problems : List Problem)
  deriving DecidableEq, Repr

namespace SettingsError

/-- The text of an error. Where a document goes wrong is not told. -/
def message : SettingsError → String
  | io error => "IO error: " ++ error.message
  | notToml => "Parse error"
  | misfit m => "Parse error: " ++ m.message
  | invalid problems => "Validation failed: " ++ ", ".intercalate (problems.map Problem.message)

/-- The full account of an error, as it is given to whoever started the program. -/
def details : SettingsError → String
  | io error => "Io(" ++ error.details ++ ")"
  | notToml => "Parse"
  | misfit _ => "Parse"
  | invalid problems => "Validation([" ++ ", ".intercalate (problems.map Problem.details) ++ "])"

end SettingsError

namespace Settings

/-- The settings, unless something is wrong with them. -/
def check (s : Settings) : Except SettingsError Settings :=
  if s.problems.isEmpty then .ok s else .error (.invalid s.problems)

/-- The settings that a text gives. -/
def parse (text : String) : Except SettingsError Settings :=
  match Toml.Document.read? text with
  | none => .error .notToml
  | some root =>
    match ofDocument root with
    | .error m => .error (.misfit m)
    | .ok s => s.check

/-- The settings that the octets of a file give. -/
def load (content : Bytes) : Except SettingsError Settings :=
  match ofUtf8? content with
  | none => .error (.io .invalidUtf8)
  | some text => parse text

end Settings

end UpgradeBridge
