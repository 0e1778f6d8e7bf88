import Reconcile.Text.Alphanumeric
import Reconcile.Text.Blank

/-!
# EnvFile — assignments of environment variables in a file

Each line assigns a value to a name.  A value may be quoted, may go on over several lines between
quotes, and may contain variables behind a `$`.  `EnvFile.read?` reads a file, `EnvFile.apply`
carries the assignments out; what the surroundings set already is not changed.
-/

namespace Reconcile.EnvFile

/-! ## Lines -/

/-- Where a reader of a line is. -/
inductive LineState where
  | text
  | blank
  | escaped
  | weak
  | weakEscaped
  | strong
  | strongEscaped
deriving DecidableEq

/-- The state behind a character that may open quotes. -/
def LineState.open (c : Char) : LineState :=
  match c with
  | '\\' => .escaped
  | '"' => .weak
  | '\'' => .strong
  | _ => .text

/-- The state behind a character. -/
def LineState.next (s : LineState) (c : Char) : LineState :=
  match s with
  | .blank => .open c
  | .text => if isBlank c && c != '\n' && c != '\r' then .blank else .open c
  | .escaped => .text
  | .weak => if c == '\\' then .weakEscaped else if c == '"' then .text else .weak
  | .weakEscaped => .weak
  | .strong => if c == '\\' then .strongEscaped else if c == '\'' then .text else .strong
  | .strongEscaped => .strong

/-- The part of a line in front of its comment, if it has one, and the state at the end of the line
otherwise.  A comment starts with a `#` behind a blank. -/
def scanLine : LineState → List Char → Except (List Char) LineState
  | s, [] => .ok s
  | s, c :: rest =>
    if s = .blank && c == '#' then .error []
    else
      match scanLine (s.next c) rest with
      | .ok s => .ok s
      | .error kept => .error (c :: kept)

/-- The lines of a text, each with its line feed. -/
def rawLines : List Char → List (List Char)
  | [] => []
  | c :: rest =>
    if c == '\n' then [c] :: rawLines rest
    else
      match rawLines rest with
      | [] => [[c]]
      | l :: ls => (c :: l) :: ls

/-- A line without its line feed. -/
def dropLineFeed (line : List Char) : List Char :=
  match line.reverse with
  | '\n' :: '\r' :: rest => rest.reverse
  | '\n' :: rest => rest.reverse
  | _ => line

/-- Puts lines together as far as quotes reach, and drops comments.  `start` is what was read of a
line that goes on, in the state that is given. -/
def logicalLines (s : LineState) (start : List Char) : List (List Char) → Option (List (List Char))
  | [] => if s = .text then some [] else none
  | line :: rest =>
    let all := start ++ line
    if (all.dropWhile isBlank).head? == some '#' then logicalLines .text [] rest
    else
      match scanLine s line with
      | .error kept => (logicalLines .text [] rest).map fun ls => (start ++ kept) :: ls
      | .ok .text => (logicalLines .text [] rest).map fun ls => dropLineFeed all :: ls
      | .ok s => logicalLines s all rest

/-! ## Values -/

/-- A part of a value: a character, or the value of a variable. -/
inductive Part where
  | char (c : Char)
  | expand (name : String)
deriving DecidableEq

/-- Where a reader of a value is, besides between double quotes or not: in the text, behind a
backslash, between single quotes, in a name behind a `$`, in one between braces, or behind the
end. -/
inductive ValueState where
  | text
  | escaped
  | strong
  | name (read : List Char)
  | braced (read : List Char)
  | behind

/-- Characters that a backslash may stand before, with what they mean then. -/
def escapes : List (Char × Char) :=
  [('\\', '\\'), ('\'', '\''), ('"', '"'), ('$', '$'), (' ', ' '), ('n', '\n')]

/-- The value of the variable whose name has been read. -/
def expansion (name : List Char) : Part := .expand (String.ofList name)

/-- A value with one more part in front. -/
def cons (p : Part) (value : Option (List Part)) : Option (List Part) := value.map (p :: ·)

/-- Reads a value; `weak` tells that double quotes are open.  Letters and digits of any script make
the name behind a `$`. -/
def readValue : Bool → ValueState → List Char → Option (List Part)
  | weak, .name read, [] => if weak then none else some [expansion read]
  | weak, .text, [] => if weak then none else some []
  | weak, .escaped, [] => if weak then none else some []
  | _, .behind, [] => some []
  | _, .strong, [] => none
  | _, .braced _, [] => none
  | weak, .behind, c :: rest =>
    if c == ' ' || c == '\t' then readValue weak .behind rest
    else if c == '#' then some []
    else none
  | weak, .escaped, c :: rest =>
    match escapes.lookup c with
    | some d => cons (.char d) (readValue weak .text rest)
    | none => none
  | weak, .strong, c :: rest =>
    if c == '\'' then readValue weak .text rest else cons (.char c) (readValue weak .strong rest)
  | weak, .braced read, c :: rest =>
    if c == '\x7d' then cons (expansion read) (readValue weak .text rest)
    else readValue weak (.braced (read ++ [c])) rest
  | weak, .name read, c :: rest =>
    if isAlphanumeric c then readValue weak (.name (read ++ [c])) rest
    else if c == '\x7b' && read.isEmpty then readValue weak (.braced []) rest
    else if c == '$' then cons (expansion read) (readValue weak (.name []) rest)
    else cons (expansion read) (cons (.char c) (readValue weak .text rest))
  | weak, .text, c :: rest =>
    if c == '$' then readValue weak (.name []) rest
    else if c == '\\' then readValue weak .escaped rest
    else if c == '"' then readValue (!weak) .text rest
    else if weak then cons (.char c) (readValue weak .text rest)
    else if c == '\'' then readValue weak .strong rest
    else if c == ' ' || c == '\t' then readValue weak .behind rest
    else cons (.char c) (readValue weak .text rest)

/-! ## Assignments -/

/-- An assignment. -/
structure Assignment where
  name : String
  value : List Part
deriving DecidableEq

/-- The first character of a name. -/
def startsName (c : Char) : Bool := c.isAlpha || c == '_'

/-- Reads a name. -/
def readName (cs : List Char) : Option (String × List Char) :=
  if !cs.head?.any startsName then none
  else
    let (name, rest) := cs.span fun c => c.isAlphanum || c == '_' || c == '.'
    some (String.ofList name, rest.dropWhile isBlank)

/-- Reads the sign between name and value. -/
def readEqual : List Char → Option (List Char)
  | '=' :: rest => some (rest.dropWhile isBlank)
  | _ => none

/-- Reads a name and the sign behind it; the word `export` may stand in front. -/
def readTarget (cs : List Char) : Option (String × List Char) := do
  let (name, rest) ← readName cs
  match name == "export", readEqual rest with
  | true, none =>
    let (name, rest) ← readName rest
    return (name, ← readEqual rest)
  | _, equal => return (name, ← equal)

/-- Nothing but a comment follows. -/
def isOver (cs : List Char) : Bool := cs.isEmpty || cs.head? == some '#'

/-- The assignments that a line makes, which are one at most. -/
def readLine (line : List Char) : Option (List Assignment) :=
  let cs := dropBlanksRight (line.dropWhile isBlank)
  if isOver cs then some [] else do
  let (name, rest) ← readTarget cs
  let value ← if isOver rest then some [] else readValue false .text rest
  return [⟨name, value⟩]

/-- The assignments of a file; none if a line cannot be read. -/
def read? (text : String) : Option (List Assignment) :=
  let cs := match text.toList with
    | '\ufeff' :: rest => rest
    | cs => cs
  ((logicalLines .text [] (rawLines cs)).bind fun lines => lines.mapM readLine).map List.flatten

/-! ## Carrying assignments out -/

/-- Looks up a variable. -/
abbrev Environment := String → Option String

/-- The text of a part; a variable that is not set counts as empty. -/
def Part.text (env : Environment) : Part → String
  | .char c => String.singleton c
  | .expand name => (env name).getD ""

/-- The surroundings behind an assignment. -/
def Assignment.apply (env : Environment) (a : Assignment) : Environment := fun name =>
  (env name).or
    (if name = a.name then some (String.join (a.value.map (Part.text env))) else none)

/-- The surroundings behind assignments, one after the other. -/
def apply (env : Environment) (assignments : List Assignment) : Environment :=
  assignments.foldl Assignment.apply env

/-- The variable that a part looks up. -/
def Part.name? : Part → Option String
  | .expand name => some name
  | .char _ => none

/-- The variables that assignments set or look up. -/
def namesIn (assignments : List Assignment) : List String :=
  assignments.flatMap fun a => a.name :: a.value.filterMap Part.name?

end Reconcile.EnvFile
