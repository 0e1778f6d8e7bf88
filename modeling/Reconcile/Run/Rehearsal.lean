import Reconcile.Run

/-!
# Run/Rehearsal — a run in memory

A **rehearsal** is a tree of files, the directory of the run and what was written so far; `host` is
the machine that it stands for.  A command line that is run over it has a value, so statements about
runs can be made and evaluated.  Main facts: a written file is found at its place
(`lookup_of_write?`), and printing leaves the files alone (`files_print`).
-/

namespace Reconcile

/-- A tree of files in memory.  A place is a list of names from the root; a directory is there if
a file is below it. -/
structure Rehearsal where
  files : List (List String × String)
  /-- The current directory, which is there even when it is empty. -/
  here : List String
  /-- The variables of the surroundings. -/
  known : Dict String
  /-- What was printed. -/
  output : String := ""
  /-- What was complained about, a line each. -/
  complaints : List String := []

namespace Rehearsal

/-- The names in a path, without those that stand still. -/
def namesOf (path : String) : List String :=
  (textPieces '/' path).filter fun p => !p.isEmpty && p != "."

/-- What is at a place is a directory. -/
def isDirectory (r : Rehearsal) (place : List String) : Bool :=
  place.isPrefixOf r.here || r.files.any fun f => place.isPrefixOf f.1 && place != f.1

/-- One name further on a way, which leads through directories only. -/
def follow? (r : Rehearsal) (place : List String) (name : String) : Option (List String) :=
  if !r.isDirectory place then none
  else if name.isEmpty || name == "." then some place
  else if name == ".." then some place.dropLast
  else some (place ++ [name])

/-- The place of a path. -/
def place? (r : Rehearsal) (path : String) : Option (List String) :=
  if path.isEmpty then none
  else (textPieces '/' path).foldlM r.follow? (if path.toList.head? == some '/' then [] else r.here)

/-- The text of the file at a path. -/
def text? (r : Rehearsal) (path : String) : Option String :=
  (r.place? path).bind fun p => r.files.lookup p

/-- There is a file or a directory at a path. -/
def isThere (r : Rehearsal) (path : String) : Bool :=
  (r.place? path).any fun p => r.isDirectory p || (r.files.lookup p).isSome

/-- The tree after a file is written; a directory cannot be. -/
def write? (r : Rehearsal) (path text : String) : Option Rehearsal :=
  (r.place? path).bind fun p =>
    if r.isDirectory p then none
    else some { r with files := (p, text) :: r.files.filter fun f => f.1 != p }

/-- Prints a text. -/
def print (text : String) (r : Rehearsal) : Rehearsal := { r with output := r.output ++ text }

/-- Prints a line of complaint. -/
def complain (line : String) (r : Rehearsal) : Rehearsal :=
  { r with complaints := r.complaints ++ [line] }

/-- Printing leaves the files alone. -/
@[simp] theorem files_print (text : String) (r : Rehearsal) : (r.print text).files = r.files := rfl

/-- A written file is found at its place. -/
theorem lookup_of_write? {r w : Rehearsal} {path text : String} {p : List String}
    (hp : r.place? path = some p) (hw : r.write? path text = some w) :
    w.files.lookup p = some text := by
  simp only [write?, hp, Option.bind_some] at hw
  split at hw
  · cases hw
  · cases hw
    exact List.lookup_cons_self

/-- The machine that a rehearsal stands for.  Its clock stands still. -/
def host : Host (StateM Rehearsal) where
  readFile path := do return (← get).text? path
  pathExists path := do return (← get).isThere path
  writeFile path text := do
    match (← get).write? path text with
    | some r => set r; return true
    | none => return false
  lookUp name := do return (← get).known.get? name
  currentDirectory := do return "/" ++ String.intercalate "/" (← get).here
  now := return .epoch
  hasColors := return false
  print text := modify (print text)
  complain line := modify (complain line)

/-- The exit code of a command line, and what is there after it. -/
def run (r : Rehearsal) (words : List String) : UInt32 × Rehearsal := (host.run words).run r

end Rehearsal

end Reconcile
