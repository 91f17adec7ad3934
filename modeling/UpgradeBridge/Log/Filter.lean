/-
Log filters: comma separated directives that say how much of each part of the
program is let through.

A directive is a level, a part, or a part with a level; it may be limited to
spans, which the lines of this program stand outside of, and to lines with
certain fields. For each line the most specific directive that is about it
decides: the one with the longest part, then the one with the most fields.
-/
import UpgradeBridge.Log
import UpgradeBridge.Settings
import UpgradeBridge.Text.Ascii
import UpgradeBridge.Text.Digit

namespace UpgradeBridge

/-- One directive of a filter. -/
structure Directive where
  /-- The front of the names of the parts it is about; none for all of them. -/
  target : Option String := none
  /-- The names of the fields a line must have. -/
  fields : List String := []
  /-- It is about what happens in certain spans, or with certain values of fields. -/
  isScoped : Bool := false
  /-- How much is let through, from 0 for nothing to 5 for everything. -/
  verbosity : Nat := 5
  deriving DecidableEq, Repr

namespace Directive

/-- The verbosity of a number from 0 to 5, which may have a plus sign in front. -/
def ofNumber? (text : String) : Option Nat :=
  let digits := match text.toList with
    | '+' :: rest => rest
    | cs => cs
  match digits.mapM (digit? 10) with
  | none | some [] => none
  | some ds => if ofDigits 10 ds ≤ 5 then some (ofDigits 10 ds) else none

/-- The verbosity that a text names. -/
def verbosity? (text : String) : Option Nat :=
  (ofNumber? text).or (
    match Ascii.lower text with
    | "" => some 1
    | "off" => some 0
    | "error" => some 1
    | "warn" => some 2
    | "info" => some 3
    | "debug" => some 4
    | "trace" => some 5
    | _ => none)

/-- How far a directive was read. Numbers tell where a part of it starts. -/
inductive Progress
  | start
  | levelOrTarget (start : Nat)
  | span (start : Nat)
  | field (start : Nat)
  | afterFields
  | afterSpan
  | level (start : Nat)
  deriving DecidableEq, Repr

/-- A character that a directive may start with. A character beyond ASCII is taken for a letter. -/
def mayStart (c : Char) : Bool :=
  c == '-' || c == ':' || c == '_' || c.isAlphanum || c.toNat ≥ 0x80

/-- The text between two places. -/
def slice (text : List Char) (start stop : Nat) : String :=
  String.ofList ((text.drop start).take (stop - start))

/-- Adds a field. One with a value limits the directive to certain values. -/
def addField (d : Directive) (text : String) : Option Directive :=
  if text.isEmpty then none
  else
    match text.toList.span (· != '=') with
    | (_, []) => some { d with fields := d.fields ++ [text] }
    | (name, _) => some { d with fields := d.fields ++ [String.ofList name], isScoped := true }

/-- Takes in the character at a place. -/
def step (text : List Char) (i : Nat) (c : Char) (p : Progress) (d : Directive) :
    Option (Progress × Directive) :=
  match p with
  | .start =>
    if c == '[' then some (.span (i + 1), d)
    else if mayStart c then some (.levelOrTarget i, d)
    else none
  | .levelOrTarget start =>
    if c == '=' then some (.level (i + 1), { d with target := some (slice text start i) })
    else if c == '[' then some (.span (i + 1), { d with target := some (slice text start i) })
    else some (p, d)
  | .span start =>
    if c == ']' then some (.afterSpan, { d with isScoped := true })
    else if c == '\x7b' then
      some (.field (i + 1), if (slice text start i).isEmpty then d else { d with isScoped := true })
    else some (p, d)
  | .field start =>
    if c == '\x7d' then (d.addField (slice text start i)).map fun d => (.afterFields, d)
    else some (p, d)
  | .afterFields => if c == ']' then some (.afterSpan, d) else none
  | .afterSpan => if c == '=' then some (.level (i + 1), d) else none
  | .level _ => some (p, d)

/-- Takes in characters from a place on. -/
def scan (text : List Char) : Nat → List Char → Progress → Directive → Option (Progress × Directive)
  | _, [], p, d => some (p, d)
  | i, c :: rest, p, d => do
    let (p, d) ← step text i c p d
    scan text (i + 1) rest p d

/-- The characters without the blanks around them. -/
def trim (cs : List Char) : List Char :=
  ((cs.dropWhile Char.isWhitespace).reverse.dropWhile Char.isWhitespace).reverse

/-- The directive that a text spells. Places are counted without the blanks in front. -/
def ofString? (text : String) : Option Directive := do
  let cs := text.toList
  match ← scan cs 0 (trim cs) .start {} with
  | (.levelOrTarget start, d) =>
    let rest := slice cs start cs.length
    match verbosity? rest with
    | some v => some { d with verbosity := v }
    | none => some { d with target := some rest }
  | (.level start, d) =>
    let rest := slice cs start cs.length
    if rest.isEmpty then some d else (verbosity? rest).map fun v => { d with verbosity := v }
  | (.afterSpan, d) => some d
  | _ => none

/-- The directive is about a line. -/
def isAbout (d : Directive) (l : LogLine) : Bool :=
  !d.isScoped &&
    (match d.target with
      | some t => t.toList.isPrefixOf l.target.toList
      | none => true) &&
    d.fields.all fun f => f == "message" || l.fields.any fun g => g.1 == f

/-- How specific a directive is about its part. -/
def reach (d : Directive) : Nat :=
  match d.target with
  | some t => t.utf8ByteSize + 1
  | none => 0

/-- A directive gives way to another that is at least as specific. -/
def yields (d other : Directive) : Bool :=
  if d.reach ≠ other.reach then d.reach < other.reach
  else if d.fields.length ≠ other.fields.length then d.fields.length < other.fields.length
  else !other.fields.lex d.fields (· < ·)

end Directive

/-- A log filter. -/
structure LogFilter where
  directives : List Directive
  deriving DecidableEq, Repr

namespace LogFilter

/-- The directive that decides about a line: of those about it the most specific, and the last of
several that are alike. -/
def deciding? (f : LogFilter) (l : LogLine) : Option Directive :=
  (f.directives.filter (·.isAbout l)).foldl
    (fun best d => match best with
      | none => some d
      | some b => if b.yields d then some d else some b) none

/-- A line is let through. -/
def passes (f : LogFilter) (l : LogLine) : Bool :=
  match f.deciding? l with
  | some d => l.level.verbosity ≤ d.verbosity
  | none => false

/-- The filter that a text spells, which lets errors through if it holds no directive. -/
def ofString? (text : String) : Option LogFilter := do
  let parts := (text.splitOn ",").filter fun p => !p.isEmpty
  let directives ← parts.mapM Directive.ofString?
  some ⟨if directives.isEmpty then [{ verbosity := 1 }] else directives⟩

end LogFilter

/-- The log directives of settings: their level for this program and for the server beneath it. -/
def Settings.Observability.directives (o : Settings.Observability) : String :=
  let level := Ascii.lower o.logLevel
  "wss_handshake_tunnel=" ++ level ++ ",tower_http=" ++ level

/-- The filter that the surroundings ask for, if they spell one, and that of the settings
otherwise. -/
def LogFilter.choose (asked : Option String) (o : Settings.Observability) : LogFilter :=
  ((asked.bind ofString?).or (ofString? o.directives)).getD ⟨[]⟩

end UpgradeBridge
