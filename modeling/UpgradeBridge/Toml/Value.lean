/-
The values of a TOML document and its tables.

A table remembers how it came about, because a table that was written in one
way must not be added to in another: a header opens it, a longer header or a
dotted key passes through it, or it is written inline. `Table.within` follows a
path of keys and keeps to these rules.
-/
import UpgradeBridge.Binary64

namespace UpgradeBridge.Toml

/-- How a table came about. -/
inductive Origin
  /-- By a header of its own. -/
  | header
  /-- By a longer header that passes through it. -/
  | implied
  /-- By a dotted key that passes through it. -/
  | dotted
  /-- Written inline. -/
  | inline
  deriving DecidableEq, Repr

/-- A value. Dates and times are told apart from other values, and no further. -/
inductive Value
  | string (text : String)
  | integer (value : Int)
  | float (value : Binary64)
  | boolean (value : Bool)
  | datetime
  | array (items : List Value)
  | table (origin : Origin) (entries : List (String × Value))
  /-- The tables that headers in double brackets opened, in order. -/
  | tables (elements : List (List (String × Value)))

/-- The keys of a table with their values, in order. -/
abbrev Entries := List (String × Value)

namespace Entries

/-- The value of a key. -/
def get? (entries : Entries) (key : String) : Option Value :=
  (entries.find? fun e => e.1 == key).map Prod.snd

/-- Takes a key out. -/
def erase (entries : Entries) (key : String) : Entries :=
  entries.filter fun e => e.1 != key

/-- Gives a key that is there another value, in its place. -/
def replace (entries : Entries) (key : String) (value : Value) : Entries :=
  entries.map fun e => if e.1 == key then (key, value) else e

end Entries

/-- A table under construction. -/
structure Table where
  origin : Origin
  entries : Entries

namespace Table

/-- The table as a value. -/
def value (t : Table) : Value :=
  .table t.origin t.entries

/-- Adds a key. -/
def push (t : Table) (key : String) (value : Value) : Table :=
  { t with entries := t.entries ++ [(key, value)] }

/-- Whether a path may pass through a table: dotted keys may not add to what a header opened, and
nothing may add to an inline table. -/
def admits (dotted : Bool) : Origin → Bool
  | .header => !dotted
  | .implied => true
  | .dotted => true
  | .inline => false

/-- Works on the table at the end of a path, and makes the tables that are missing on the way. In an
array of tables the path goes on in the newest. -/
def within (dotted : Bool) (work : Table → Option Table) : List String → Table → Option Table
  | [], t => work t
  | key :: rest, t =>
    match t.entries.get? key with
    | none => do
      let child ← within dotted work rest ⟨if dotted then .dotted else .implied, []⟩
      some (t.push key child.value)
    | some (.table origin entries) =>
      if admits dotted origin then do
        let child ← within dotted work rest ⟨origin, entries⟩
        some { t with entries := t.entries.replace key child.value }
      else none
    | some (.tables elements) =>
      match elements.getLast? with
      | some newest => do
        let child ← within dotted work rest ⟨.header, newest⟩
        some { t with
          entries := t.entries.replace key (.tables (elements.dropLast ++ [child.entries])) }
      | none => none
    | some _ => none

/-- Adds a new key. -/
def define (key : String) (value : Value) (t : Table) : Option Table :=
  match t.entries.get? key with
  | none => some (t.push key value)
  | some _ => none

end Table

/-- A key with the keys that lead to its table. -/
structure Key where
  path : List String
  name : String
  deriving DecidableEq, Repr

/-- Gives a key of a table a value. A dotted key may only add to tables that dotted keys made. -/
def Table.assign (t : Table) (key : Key) (value : Value) : Option Table :=
  t.within true
    (fun child =>
      if key.path.isEmpty || child.origin == .dotted then child.define key.name value else none)
    key.path

end UpgradeBridge.Toml
