import Reconcile.Text.Pieces

/-!
# Path — names of files

A path has components between slashes; empty ones count nothing, and neither does a dot, except at
the start.
-/

namespace Reconcile.Path

/-- Pieces of a path, the last one first, without those at the end that count nothing. -/
def dropIdle : List String → List String
  | [] => []
  | p :: rest => if p.isEmpty || (p == "." && !rest.isEmpty) then dropIdle rest else p :: rest

/-- The pieces of a path, the last one first. -/
def components (path : String) : List String := dropIdle (textPieces '/' path).reverse

/-- The path with the given pieces, the last one first. -/
def ofPieces (absolute : Bool) : List String → String
  | [] => if absolute then "/" else ""
  | ps => String.intercalate "/" ps.reverse

/-- The path without its last component. -/
def parent? (path : String) : Option String :=
  match components path with
  | [] => none
  | _ :: rest => some (ofPieces (path.toList.head? == some '/') (dropIdle rest))

/-- A path and the paths above it, up to a number of steps. -/
def ascend : Nat → String → List String
  | 0, path => [path]
  | n + 1, path =>
    match parent? path with
    | some p => path :: ascend n p
    | none => [path]

/-- A path and all paths above it. -/
def ancestors (path : String) : List String := ascend (components path).length path

/-- A path below another one; an absolute path stands for itself. -/
def join (base path : String) : String :=
  if path.toList.head? == some '/' || base.isEmpty then path
  else if base.toList.getLast? == some '/' then base ++ path
  else base ++ "/" ++ path

/-- The last component, if it names something. -/
def fileName? (path : String) : Option String :=
  match components path with
  | name :: _ => if name == "." || name == ".." then none else some name
  | [] => none

/-- What stands behind the last dot of a file name, unless that dot is the first character. -/
def extension? (path : String) : Option String := do
  let name ← fileName? path
  match (textPieces '.' name).reverse with
  | last :: rest => if String.intercalate "." rest.reverse == "" then none else some last
  | [] => none

end Reconcile.Path
