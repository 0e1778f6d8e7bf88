import Reconcile.Number

/-!
# Json — document trees

An object keeps its members in the order they were written, repeated keys included; whoever reads
one decides what a repetition means.
-/

namespace Reconcile

/-- A tree of the JSON data model. -/
inductive Json where
  | null
  | bool (value : Bool)
  | number (value : Number)
  | string (value : String)
  | array (items : List Json)
  | object (members : List (String × Json))
deriving Inhabited

namespace Json

/-- A natural number as a tree. -/
def nat (n : Nat) : Json := .number (.int n)

/-- Texts as an array. -/
def strings (l : List String) : Json := .array (l.map .string)

/-- An optional tree, with `null` for none. -/
def orNull : Option Json → Json
  | some j => j
  | none => .null

/-- The first member of an object with a key. -/
def member? : Json → String → Option Json
  | .object members, key => members.lookup key
  | _, _ => none

end Json

end Reconcile
