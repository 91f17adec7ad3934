/-
Why a document does not fit the settings, with the words in which that is told.
-/
import UpgradeBridge.Binary64.Shortest
import UpgradeBridge.Text.Quoted

namespace UpgradeBridge

/-- What stands where a value of another kind is expected. -/
inductive Misfit.Found
  | boolean (value : Bool)
  | integer (value : Int)
  | float (value : Binary64)
  | string (text : String)
  | sequence
  | map
  deriving DecidableEq, Repr

/-- A text between backquotes. -/
def Misfit.ticked (text : String) : String :=
  String.singleton (Char.ofNat 0x60) ++ text ++ String.singleton (Char.ofNat 0x60)

/-- The words for what was found. -/
def Misfit.Found.text : Misfit.Found → String
  | boolean value => "boolean " ++ ticked (toString value)
  | integer value => "integer " ++ ticked (toString value)
  | float value => "floating point " ++ ticked value.text
  | string text => "string " ++ quote text
  | sequence => "sequence"
  | map => "map"

/-- What is expected. -/
inductive Misfit.Expected
  | string
  | boolean
  /-- A whole number that is not negative. -/
  | count
  /-- The section with a name. -/
  | group (name : String)
  deriving DecidableEq, Repr

/-- The words for what is expected. -/
def Misfit.Expected.text : Misfit.Expected → String
  | string => "a string"
  | boolean => "a boolean"
  | count => "u64"
  | group name => "struct " ++ name

/-- Why a document does not fit the settings. -/
inductive Misfit
  /-- A value of another kind is expected. -/
  | kind (found : Misfit.Found) (expected : Misfit.Expected)
  /-- A number is out of range. -/
  | range (value : Int) (expected : Misfit.Expected)
  /-- A choice is none of those there are. -/
  | choice (name : String)
  /-- A choice written as a table has no key. -/
  | noChoice
  /-- A choice written as a table has more than one key. -/
  | manyChoices
  /-- A choice is neither a string nor a table. -/
  | notAChoice
  /-- A choice comes with something, in a table or an array. -/
  | payload
  /-- A choice comes with tables in an array. -/
  | payloads
  /-- A choice comes with something that is no table. -/
  | scalarPayload (word : String)
  deriving DecidableEq, Repr

/-- The text of a misfit. -/
def Misfit.message : Misfit → String
  | .kind found expected => "invalid type: " ++ found.text ++ ", expected " ++ expected.text
  | range value expected =>
    "invalid value: " ++ (Found.integer value).text ++ ", expected " ++ expected.text
  | choice name =>
    "unknown variant " ++ ticked name ++ ", expected " ++ ticked "standard" ++ " or " ++
      ticked "url_safe"
  | noChoice => "wanted exactly 1 element, found 0 elements"
  | manyChoices => "wanted exactly 1 element, more than 1 element"
  | notAChoice => "wanted string or table"
  | payload => "expected empty table"
  | payloads => "expected empty array"
  | scalarPayload word => "expected table, found " ++ word

end UpgradeBridge
