import Reconcile.Change

/-!
# ChangeId — the form of change identifiers

An identifier has four parts between colons: a position, the letter of the action, the kind and the
reference, of which only the last may contain colons.
-/

namespace Reconcile

/-- The parts of a change identifier. -/
structure ChangeId where
  position : Nat
  action : Action
  kind : String
  ref : String
deriving DecidableEq

namespace ChangeId

/-- Positions are numbers of 64 bits. -/
def positionLimit : Nat := Nat.pow 2 64

/-- The number that a text of decimal digits writes. -/
def digitsNumber (digits : List Char) : Nat :=
  digits.foldl (fun n c => 10 * n + (c.toNat - '0'.toNat)) 0

/-- Reads a position: digits, perhaps behind a plus. -/
def position? (cs : List Char) : Option Nat :=
  let digits := match cs with
    | '+' :: rest => rest
    | _ => cs
  if digits.isEmpty || !digits.all Char.isDigit then none
  else
    let n := digitsNumber digits
    if n < positionLimit then some n else none

/-- Reads the letter of an action. -/
def action? : List Char → Option Action
  | [c] => Action.ofLetter? c
  | _ => none

/-- Reads an identifier: it is cut at its first three colons, and the kind may not be empty. -/
def parse? (id : String) : Option ChangeId := do
  let (position, rest) ← splitFirst ':' id.toList
  let position ← position? position
  let (letter, rest) ← splitFirst ':' rest
  let action ← action? letter
  let (kind, ref) ← splitFirst ':' rest
  if kind.isEmpty then none else
  return ⟨position, action, String.ofList kind, String.ofList ref⟩

/-- The identifier with the given parts. -/
def text (c : ChangeId) : String :=
  toString c.position ++ ":" ++ String.singleton c.action.letter ++ ":" ++ c.kind ++ ":" ++ c.ref

end ChangeId

end Reconcile
