import Reconcile.Json.Numeral
import Reconcile.Source

/-!
# Json/Draft — trees as they are written

A `Draft` has the shape of a text, but nobody has looked yet at what its numbers and strings mean: a
number may be past the doubles, a string may hold half of a character.  That matters only for the
parts of a document that somebody asks for, so the decoders read drafts; `Draft.json?` asks for
everything.
-/

namespace Reconcile.Json

/-- A part of a written string: a character, or a unit of sixteen bits by its number. -/
inductive Piece where
  | char (c : Char)
  | unit (n : Nat)
deriving DecidableEq

namespace Piece

/-- A first half of a pair of units. -/
def isHighHalf (n : Nat) : Bool := 0xD800 ≤ n && n < 0xDC00

/-- A second half of a pair of units. -/
def isLowHalf (n : Nat) : Bool := 0xDC00 ≤ n && n < 0xE000

/-- The characters of a written string; every half has to be part of a pair. -/
def chars? : List Piece → Option (List Char)
  | [] => some []
  | .char c :: rest => (chars? rest).map (c :: ·)
  | .unit n :: rest =>
    if isLowHalf n then none
    else if isHighHalf n then
      match rest with
      | .unit m :: rest =>
        if isLowHalf m then
          (chars? rest).map (Char.ofNat (0x10000 + (n - 0xD800) * 0x400 + (m - 0xDC00)) :: ·)
        else none
      | _ => none
    else (chars? rest).map (Char.ofNat n :: ·)

/-- The text of a written string. -/
def text? (pieces : List Piece) : Option String := (chars? pieces).map String.ofList

end Piece

/-- A tree as it is written. -/
inductive Draft where
  | null
  | bool (value : Bool)
  | number (numeral : Numeral)
  | string (pieces : List Piece)
  | array (items : List Draft)
  | object (members : List (List Piece × Draft))
deriving Inhabited

namespace Draft

mutual

/-- What a draft means, if no more than a number of arrays and objects are nested. -/
def json? (room : Nat) : Draft → Option Json
  | .null => some .null
  | .bool b => some (.bool b)
  | .number n => n.value?.map .number
  | .string pieces => (Piece.text? pieces).map .string
  | .array items => if room = 0 then none else (items? (room - 1) items).map .array
  | .object members => if room = 0 then none else (members? (room - 1) members).map .object

/-- What the items of an array mean. -/
def items? (room : Nat) : List Draft → Option (List Json)
  | [] => some []
  | item :: rest =>
    match json? room item, items? room rest with
    | some j, some js => some (j :: js)
    | _, _ => none

/-- What the members of an object mean. -/
def members? (room : Nat) : List (List Piece × Draft) → Option (List (String × Json))
  | [] => some []
  | (key, value) :: rest =>
    match Piece.text? key, json? room value, members? room rest with
    | some k, some j, some members => some ((k, j) :: members)
    | _, _, _ => none

end

/-- The members of an object under the texts of their keys. -/
def named? (members : List (List Piece × Draft)) : Option (List (String × Draft)) :=
  members.mapM fun m => (Piece.text? m.1).map fun key => (key, m.2)

/-- A record is an object, or an array of its fields in order from which some may be missing at the
end. -/
def fields? (names : List String) : Draft → Option (List (String × Draft))
  | .object members =>
    ((named? members).map fun l => l.filter fun m => names.contains m.1).filter distinctKeys
  | .array items => if items.length ≤ names.length then some (names.zip items) else none
  | _ => none

instance : Source (Nested Draft) where
  isNothing d := d.tree matches .null
  text? d :=
    match d.tree with
    | .string pieces => Piece.text? pieces
    | _ => none
  bool? d :=
    match d.tree with
    | .bool b => some b
    | _ => none
  natural? d :=
    match d.tree with
    | .number n => n.value?.bind Number.natural?
    | _ => none
  items? d :=
    match d.tree with
    | .array items => d.enter items
    | _ => none
  entries? d :=
    match d.tree with
    | .object members => (named? members).bind d.enterNamed
    | _ => none
  record? names d := (fields? names d.tree).bind d.enterNamed
  json? d := d.tree.json? d.room

end Draft

end Reconcile.Json
