import Reconcile.Source
import Reconcile.Yaml.Node
import Reconcile.Yaml.Plain

/-!
# Yaml/Document — typed documents from YAML

A text takes any scalar as it is written; a truth value only a plain one.  A value that is left out
counts as empty where a list or a map is expected, while an explicit `null` does not.  Of entries
with one key the last one counts, but a known field of a record occurs once.  The parts of a tree
that no decoder looks at may be nested as deep as they like.
-/

namespace Reconcile.Yaml.Node

/-- A value that is left out. -/
def isOmitted : Node → Bool
  | .scalar text plain => plain && text.isEmpty
  | _ => false

/-- A value that is left out or explicitly nothing. -/
def isNothing : Node → Bool
  | .scalar text plain => plain && (text.isEmpty || isNullWord text)
  | _ => false

/-- The text of a scalar. -/
def text? : Node → Option String
  | .scalar text _ => some text
  | _ => none

/-- The truth value of a plain scalar. -/
def bool? : Node → Option Bool
  | .scalar text true => truthValue? text
  | _ => none

/-- The natural number of 64 bits that a plain scalar writes. -/
def natural? : Node → Option Nat
  | .scalar text true =>
    (integer? text.toList).bind fun n => if 0 ≤ n && Number.fits n then some n.toNat else none
  | _ => none

/-- The parts of a list. -/
def items? (d : Nested Node) : Option (List (Nested Node)) :=
  match d.tree with
  | .list items => d.enter items
  | t => if t.isOmitted then some [] else none

/-- Entries whose keys are all scalars, under the texts of the keys. -/
def named? (entries : List (Node × Node)) : Option (List (String × Node)) :=
  entries.mapM fun e => e.1.text?.map fun key => (key, e.2)

/-- The entries of a map with scalar keys. -/
def entries? (d : Nested Node) : Option (List (String × Nested Node)) :=
  match d.tree with
  | .map entries => (named? entries).bind d.enterNamed
  | t => if t.isOmitted then some [] else none

/-- The known fields of a map with scalar keys, none of which may occur twice. -/
def fields? (names : List String) (d : Nested Node) : Option (List (String × Nested Node)) :=
  match d.tree with
  | .map entries =>
    let known := (named? entries).map fun l => l.filter fun e => names.contains e.1
    (known.filter distinctKeys).bind d.enterNamed
  | t => if t.isOmitted then some [] else none

mutual

/-- The plain data of a tree, if no more than a number of lists and maps are nested. -/
def json? (room : Nat) : Node → Option Json
  | .scalar text plain => if plain then plainMeaning? text else some (.string text)
  | .list items => if room = 0 then none else (jsonItems? (room - 1) items).map .array
  | .map entries => if room = 0 then none else (jsonMembers? (room - 1) entries).map .object

/-- The plain data of the items of a list. -/
def jsonItems? (room : Nat) : List Node → Option (List Json)
  | [] => some []
  | item :: rest =>
    match json? room item, jsonItems? room rest with
    | some j, some js => some (j :: js)
    | _, _ => none

/-- The plain data of the entries of a map; every key has to be a scalar. -/
def jsonMembers? (room : Nat) : List (Node × Node) → Option (List (String × Json))
  | [] => some []
  | (key, value) :: rest =>
    match key.text?, json? room value, jsonMembers? room rest with
    | some k, some j, some members => some ((k, j) :: members)
    | _, _, _ => none

end

instance : Source (Nested Node) where
  isNothing d := d.tree.isNothing
  text? d := d.tree.text?
  bool? d := d.tree.bool?
  natural? d := d.tree.natural?
  items? := items?
  entries? := entries?
  record? := fields?
  json? d := d.tree.json? d.room

/-- The number of lists and maps that may be nested. -/
def maxDepth : Nat := 128

/-- The typed document in a text. -/
def decodeText? {α : Type} (decode : Nested Node → Option α) (text : String) : Option α :=
  (read? text).bind fun d => decode ⟨d, maxDepth⟩

end Reconcile.Yaml.Node
