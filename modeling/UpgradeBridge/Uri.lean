/-
Request targets and their printed form.

A target is a path (or `*`), an authority alone, or a scheme with an authority
and a path. `Uri.Reading` tells which texts are targets.
-/
namespace UpgradeBridge

/-- The host of a target with its user information and port, as it was written. -/
structure Authority where
  text : String
  deriving DecidableEq, Repr

/-- A path with the query after it. Fragments are not kept. -/
structure Path where
  path : String
  query : Option String
  deriving DecidableEq, Repr

/-- The path, which is `/` when nothing was written, and the query. -/
def Path.text (p : Path) : String :=
  (if p.path.isEmpty then "/" else p.path) ++
    match p.query with
    | none => ""
    | some query => "?" ++ query

/-- A request target. -/
inductive Uri
  /-- A path on the server that is asked. -/
  | path (path : Path)
  /-- A host to be connected to. -/
  | authority (authority : Authority)
  /-- A full address. -/
  | absolute (scheme : String) (authority : Authority) (path : Path)
  deriving DecidableEq, Repr

namespace Uri

/-- The path `/`. -/
def root : Uri := .path ⟨"/", none⟩

/-- The host of a target that has one. -/
def authority? : Uri → Option Authority
  | .path _ => none
  | .authority a => some a
  | .absolute _ a _ => some a

/-- The scheme of a full address. -/
def scheme? : Uri → Option String
  | .absolute scheme _ _ => some scheme
  | _ => none

/-- The path of a target that has one. -/
def path? : Uri → Option Path
  | .path p => some p
  | .authority _ => none
  | .absolute _ _ p => some p

/-- The target as it is written. -/
def text : Uri → String
  | .path p => p.text
  | .authority a => a.text
  | .absolute scheme a p => scheme ++ "://" ++ a.text ++ p.text

end Uri

end UpgradeBridge
