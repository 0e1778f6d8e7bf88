import Reconcile.Dict
import Reconcile.Json.Printer
import Reconcile.Reference

/-!
# Value — the field values of resources and changes

A value is a JSON tree in which references stand apart from texts.  `Value.toJson` writes references
as marked texts, `Value.ofJson` recognises them again; maps keep their keys in ascending order.
-/

namespace Reconcile

/-- A field value. -/
inductive Value where
  | null
  | bool (value : Bool)
  | number (value : Number)
  | text (value : String)
  | list (items : List Value)
  | map (entries : List (String × Value))
  | reference (value : Reference)
deriving Inhabited

/-- Field names with their values. -/
abbrev FieldMap := Dict Value

namespace Value

mutual

/-- Equality of values; numbers are compared as numbers. -/
def same : Value → Value → Bool
  | .null, .null => true
  | .bool a, .bool b => a == b
  | .number a, .number b => a == b
  | .text a, .text b => a == b
  | .list a, .list b => sameItems a b
  | .map a, .map b => sameEntries a b
  | .reference a, .reference b => a == b
  | _, _ => false

/-- Equality of lists of values. -/
def sameItems : List Value → List Value → Bool
  | [], [] => true
  | a :: as, b :: bs => same a b && sameItems as bs
  | _, _ => false

/-- Equality of entries. -/
def sameEntries : List (String × Value) → List (String × Value) → Bool
  | [], [] => true
  | (k, a) :: as, (l, b) :: bs => k == l && same a b && sameEntries as bs
  | _, _ => false

end

instance : BEq Value := ⟨same⟩

/-- A text that is a written reference becomes one. -/
def ofText (s : String) : Value :=
  match Reference.parse? s with
  | some r => .reference r
  | none => .text s

mutual

/-- The value a tree holds; of a repeated key the last member counts. -/
def ofJson : Json → Value
  | .null => .null
  | .bool value => .bool value
  | .number value => .number value
  | .string value => ofText value
  | .array items => .list (ofItems items)
  | .object members => .map (Entries.ofList (ofMembers members))

/-- The values of the items of an array. -/
def ofItems : List Json → List Value
  | [] => []
  | item :: rest => ofJson item :: ofItems rest

/-- The members of an object with their values. -/
def ofMembers : List (String × Json) → List (String × Value)
  | [] => []
  | (key, value) :: rest => (key, ofJson value) :: ofMembers rest

end

mutual

/-- The tree of a value: references are written as texts. -/
def toJson : Value → Json
  | .null => .null
  | .bool value => .bool value
  | .number value => .number value
  | .text value => .string value
  | .list items => .array (toItems items)
  | .map entries => .object (toMembers entries)
  | .reference value => .string value.text

/-- The trees of a list of values. -/
def toItems : List Value → List Json
  | [] => []
  | item :: rest => toJson item :: toItems rest

/-- The members that entries become. -/
def toMembers : List (String × Value) → List (String × Json)
  | [] => []
  | (key, value) :: rest => (key, toJson value) :: toMembers rest

end

/-- Scalars as they read, composite values as compact JSON; nothing for `null`. -/
def plainText : Value → String
  | .null => ""
  | .bool value => if value then "true" else "false"
  | .number value => value.text
  | .text value => value
  | .reference value => value.text
  | .list items => (toJson (.list items)).compact
  | .map entries => (toJson (.map entries)).compact

/-- The text of a text. -/
def text? : Value → Option String
  | .text value => some value
  | _ => none

/-- The items of a list. -/
def items? : Value → Option (List Value)
  | .list items => some items
  | _ => none

/-- The reference that a value is. -/
def reference? : Value → Option Reference
  | .reference value => some value
  | _ => none

/-- An explicitly cleared value. -/
def isNull : Value → Bool
  | .null => true
  | _ => false

/-- The value under a key of a map; nothing else has keys. -/
def child? : Value → String → Option Value
  | .map entries, key => Entries.get? key entries
  | _, _ => none

/-- Follows keys into nested maps. -/
def follow? (v : Value) (keys : List String) : Option Value := keys.foldlM child? v

/-- The nested value at a path of keys between dots. -/
def getPath? (v : Value) (path : String) : Option Value := v.follow? (textPieces '.' path)

/-- Texts as a map of text values. -/
def ofTexts (d : Dict String) : Value := .map (d.map Value.text).entries

end Value

namespace FieldMap

/-- The nested value at a path: the first key is looked up in the fields, the rest below it. -/
def getPath? (fields : FieldMap) (path : String) : Option Value :=
  match splitTextFirst '.' path with
  | some (head, rest) => (fields.get? head).bind fun v => v.getPath? rest
  | none => fields.get? path

/-- The object that fields are written as. -/
def toJson (fields : FieldMap) : Json := .object (Value.toMembers fields.entries)

end FieldMap

/-! ## Declarations that may clear a field -/

/-- A declared attribute: not given, cleared, or given. -/
inductive Nullable (α : Type) where
  | absent
  | null
  | value (a : α)
deriving DecidableEq, Inhabited

namespace Nullable

variable {α : Type}

/-- The field value that a declaration asks for. -/
def toField (write : α → Value) : Nullable α → Option Value
  | .absent => none
  | .null => some .null
  | .value a => some (write a)

instance [BEq α] : BEq (Nullable α) where
  beq
    | .absent, .absent => true
    | .null, .null => true
    | .value a, .value b => a == b
    | _, _ => false

end Nullable

end Reconcile
