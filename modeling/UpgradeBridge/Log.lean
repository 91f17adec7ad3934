/-
Log lines: how urgent they are, which part of the program they come from, and
how they are written.
-/
namespace UpgradeBridge

/-- How urgent a log line is. -/
inductive Level
  | trace
  | debug
  | info
  | warn
  | error
  deriving DecidableEq, Repr

namespace Level

/-- The word for a level. -/
def text : Level → String
  | trace => "TRACE"
  | debug => "DEBUG"
  | info => "INFO"
  | warn => "WARN"
  | error => "ERROR"

/-- How much has to be let through for a level to be: 1 for errors, 5 for everything. -/
def verbosity : Level → Nat
  | error => 1
  | warn => 2
  | info => 3
  | debug => 4
  | trace => 5

end Level

/-- A log line. -/
structure LogLine where
  level : Level
  /-- The part of the program it comes from. -/
  target : String
  message : String
  /-- Names and values that belong to the message. -/
  fields : List (String × String) := []
  deriving DecidableEq, Repr

/-- The line as it is written, without the time. -/
def LogLine.text (l : LogLine) : String :=
  l.fields.foldl (fun s f => s ++ " " ++ f.1 ++ "=" ++ f.2)
    (l.level.text ++ " " ++ l.target ++ ": " ++ l.message)

/-- The line with its time in front. Levels end in one column. -/
def LogLine.stamped (l : LogLine) (time : String) : String :=
  time ++ String.ofList (List.replicate (6 - l.level.text.length) ' ') ++ l.text

end UpgradeBridge
