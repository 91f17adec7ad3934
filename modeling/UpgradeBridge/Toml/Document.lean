/-
TOML documents: the lines of a text, and the table that they build.

A document is a run of pairs for the root table, then headers with the pairs of
their tables. `Document.read?` gives the root table of a text, or nothing for a
text that is no document, one that defines a key twice included.
-/
import UpgradeBridge.Toml.Lexical
import UpgradeBridge.Toml.Number

namespace UpgradeBridge.Toml

/-- Reads the items of an array up to its closing bracket. A comma may follow the last item. -/
def arrayItems (item : Reads Value) : (fuel : Nat) → Reads (List Value)
  | 0, _ => none
  | fuel + 1, cs =>
    match skipLines false cs with
    | ']' :: rest => some ([], rest)
    | cs => do
      let (x, cs) ← item cs
      match skipLines false cs with
      | ']' :: rest => some ([x], rest)
      | ',' :: rest =>
        let (xs, rest) ← arrayItems item fuel rest
        some (x :: xs, rest)
      | _ => none

/-- Reads a key, an equals sign and a value. -/
def pair (item : Reads Value) : Reads (Key × Value) := fun cs => do
  let (k, cs) ← key cs
  let cs ← after? '=' cs
  let (v, cs) ← item (skipBlanks cs)
  some ((k, v), cs)

/-- Reads the pairs of an inline table up to its closing brace, at least one. -/
def inlinePairs (item : Reads Value) : (fuel : Nat) → Reads (List (Key × Value))
  | 0, _ => none
  | fuel + 1, cs => do
    let (p, cs) ← pair item cs
    match skipBlanks cs with
    | '\x7d' :: rest => some ([p], rest)
    | ',' :: rest =>
      let (ps, rest) ← inlinePairs item fuel rest
      some (p :: ps, rest)
    | _ => none

/-- Gives the keys of some pairs their values, in order. -/
def Table.assignAll (t : Table) (pairs : List (Key × Value)) : Option Table :=
  pairs.foldlM (fun t p => t.assign p.1 p.2) t

/-- Reads an inline table after its opening brace. -/
def inlineTable (item : Reads Value) : Reads Value := fun cs =>
  match skipBlanks cs with
  | '\x7d' :: rest => some (.table .inline [], rest)
  | cs => do
    let (pairs, rest) ← inlinePairs item (cs.length + 1) cs
    let t ← Table.assignAll ⟨.inline, []⟩ pairs
    some (t.value, rest)

/-- Reads a value that holds no other values. -/
def scalar : Reads Value
  | 't' :: 'r' :: 'u' :: 'e' :: rest => some (.boolean true, rest)
  | 'f' :: 'a' :: 'l' :: 's' :: 'e' :: rest => some (.boolean false, rest)
  | cs =>
    match cs.head? with
    | some '"' | some '\'' => (string cs).map fun r => (.string r.1, r.2)
    | _ => number cs

/-- Reads a value that is nested no deeper than there is room for. -/
def value : (room : Nat) → Reads Value
  | 0 => scalar
  | room + 1 => fun cs =>
    match cs with
    | '[' :: rest =>
      (arrayItems (value room) (rest.length + 1) rest).map fun r => (.array r.1, r.2)
    | '\x7b' :: rest => inlineTable (value room) rest
    | cs => scalar cs

/-- A line of a document that says something. -/
inductive Line
  /-- A key and its value. -/
  | pair (key : Key) (value : Value)
  /-- A header in brackets. -/
  | table (key : Key)
  /-- A header in double brackets. -/
  | element (key : Key)

/-- Reads a line that says something, up to the next line. -/
def line : Reads Line := fun cs =>
  match cs with
  | '[' :: '[' :: rest => do
    let (k, cs) ← key rest
    let cs ← after? ']' cs
    let cs ← after? ']' cs
    some (.element k, ← endOfLine? cs)
  | '[' :: rest => do
    let (k, cs) ← key rest
    let cs ← after? ']' cs
    some (.table k, ← endOfLine? cs)
  | cs => do
    let ((k, v), cs) ← pair (value (limit - 1)) cs
    some (.pair k v, ← endOfLine? cs)

/-- Reads the lines of a document to the end of the text. -/
def lines : (fuel : Nat) → List Char → Option (List Line)
  | 0, _ => none
  | fuel + 1, cs =>
    match skipLines false cs with
    | [] => some []
    | cs => do
      let (l, rest) ← line cs
      let ls ← lines fuel rest
      some (l :: ls)

/-- A header with the pairs that follow it. -/
structure Section where
  key : Key
  /-- The header is in double brackets. -/
  repeated : Bool
  pairs : List (Key × Value)

/-- The pairs in front of the first header, and the sections. -/
def sections : List Line → List (Key × Value) × List Section
  | [] => ([], [])
  | .pair k v :: rest =>
    let (pairs, ss) := sections rest
    ((k, v) :: pairs, ss)
  | .table k :: rest =>
    let (pairs, ss) := sections rest
    ([], ⟨k, false, pairs⟩ :: ss)
  | .element k :: rest =>
    let (pairs, ss) := sections rest
    ([], ⟨k, true, pairs⟩ :: ss)

/-- Puts a section into its parent table. A table that longer headers passed through is opened and
moves to the end; an array of tables grows by one. -/
def Section.place (s : Section) (parent : Table) : Option Table :=
  match parent.entries.get? s.key.name, s.repeated with
  | none, false => do
    let t ← Table.assignAll ⟨.header, []⟩ s.pairs
    some (parent.push s.key.name t.value)
  | some (.table .implied entries), false => do
    let t ← Table.assignAll ⟨.header, entries⟩ s.pairs
    some (Table.push { parent with entries := parent.entries.erase s.key.name } s.key.name t.value)
  | none, true => do
    let t ← Table.assignAll ⟨.header, []⟩ s.pairs
    some (parent.push s.key.name (.tables [t.entries]))
  | some (.tables elements), true => do
    let t ← Table.assignAll ⟨.header, []⟩ s.pairs
    some { parent with
      entries := parent.entries.replace s.key.name (.tables (elements ++ [t.entries])) }
  | _, _ => none

/-- Adds a section to the root table. -/
def Section.add (root : Table) (s : Section) : Option Table :=
  root.within false s.place s.key.path

/-- The root table of the lines of a document. -/
def build? (ls : List Line) : Option Table := do
  let (pairs, ss) := sections ls
  let root ← Table.assignAll ⟨.header, []⟩ pairs
  ss.foldlM Section.add root

namespace Document

/-- The root table of a text. A byte order mark in front is passed over. -/
def read? (text : String) : Option Entries := do
  let cs := match text.toList with
    | '\ufeff' :: rest => rest
    | cs => cs
  let ls ← lines (cs.length + 1) cs
  let root ← build? ls
  some root.entries

end Document

end UpgradeBridge.Toml
