import Reconcile.Dict
import Reconcile.Json

/-!
# Source — trees that typed documents are read from

`Source` lists the ways in which a reader may look at a tree: as a text, a list, a record with named
fields, and so on.  The decoders of the document types are written over it, so one decoder serves
every format.  A record may hold fields that its reader does not know; a known one occurs at most
once.  `Nested` bounds how deep a reader looks, and not how deep a tree is.
-/

namespace Reconcile

/-- The views of a tree that decoders use; each fails on a tree of another shape. -/
class Source (δ : Type) where
  /-- What an optional field takes as nothing. -/
  isNothing : δ → Bool
  text? : δ → Option String
  bool? : δ → Option Bool
  natural? : δ → Option Nat
  items? : δ → Option (List δ)
  /-- The entries of a map; the reader decides which of two equal keys counts. -/
  entries? : δ → Option (List (String × δ))
  /-- The fields of a record among those named, each at most once. -/
  record? : List String → δ → Option (List (String × δ))
  /-- The tree as plain data. -/
  json? : δ → Option Json

/-- No key occurs twice. -/
def distinctKeys {α : Type} : List (String × α) → Bool
  | [] => true
  | e :: rest => !rest.any (fun x => x.1 == e.1) && distinctKeys rest

/-- The known fields of a record. -/
structure Record (δ : Type) where
  fields : List (String × δ)

namespace Record

variable {δ α : Type}

/-- The record with the named fields that a tree is. -/
def of? [Source δ] (names : List String) (d : δ) : Option (Record δ) :=
  (Source.record? names d).map Record.mk

/-- A field that must be there. -/
def required (r : Record δ) (name : String) (decode : δ → Option α) : Option α :=
  (r.fields.lookup name).bind decode

/-- A field with a value for its absence. -/
def orElse (r : Record δ) (name : String) (decode : δ → Option α) (absent : α) : Option α :=
  match r.fields.lookup name with
  | some d => decode d
  | none => some absent

/-- An optional field: absence and nothing are the same. -/
def optional [Source δ] (r : Record δ) (name : String) (decode : δ → Option α) :
    Option (Option α) :=
  match r.fields.lookup name with
  | some d => if Source.isNothing d then some none else (decode d).map some
  | none => some none

end Record

namespace Source

variable {δ α : Type} [Source δ]

/-- A list of decoded items. -/
def list? (decode : δ → Option α) (d : δ) : Option (List α) :=
  (items? d).bind fun items => items.mapM decode

/-- A map of decoded values. -/
def dict? (decode : δ → Option α) (d : δ) : Option (Dict α) :=
  (entries? d).bind fun entries =>
    (entries.mapM fun e => (decode e.2).map fun v => (e.1, v)).map Dict.ofList

/-- A list of texts. -/
def texts? (d : δ) : Option (List String) := list? text? d

/-- A map of texts. -/
def textDict? (d : δ) : Option (Dict String) := dict? text? d

end Source

/-! ## Depth -/

/-- A tree, with the number of lists, maps and records inside one another that may be entered. -/
structure Nested (τ : Type) where
  tree : τ
  room : Nat

namespace Nested

variable {τ : Type}

/-- The parts of a tree, one level further inside. -/
def enter (d : Nested τ) (parts : List τ) : Option (List (Nested τ)) :=
  match d.room with
  | 0 => none
  | room + 1 => some (parts.map fun t => ⟨t, room⟩)

/-- The named parts of a tree, one level further inside. -/
def enterNamed (d : Nested τ) (parts : List (String × τ)) :
    Option (List (String × Nested τ)) :=
  match d.room with
  | 0 => none
  | room + 1 => some (parts.map fun e => (e.1, ⟨e.2, room⟩))

end Nested

namespace Json

/-- A record is an object, or an array of its fields in order from which some may be missing at the
end. -/
def recordFields? (names : List String) : Json → Option (List (String × Json))
  | .object members =>
    let known := members.filter fun m => names.contains m.1
    if distinctKeys known then some known else none
  | .array items => if items.length ≤ names.length then some (names.zip items) else none
  | _ => none

instance : Source Json where
  isNothing
    | .null => true
    | _ => false
  text?
    | .string s => some s
    | _ => none
  bool?
    | .bool b => some b
    | _ => none
  natural?
    | .number n => n.natural?
    | _ => none
  items?
    | .array items => some items
    | _ => none
  entries?
    | .object members => some members
    | _ => none
  record? := recordFields?
  json? j := some j

/-! ## Writing records -/

/-- The object with the given parts in order. -/
def ofParts (parts : List (List (String × Json))) : Json := .object parts.flatten

/-- A field that is always written. -/
def field (name : String) (value : Json) : List (String × Json) := [(name, value)]

/-- A field that is left out when its value is empty. -/
def fieldUnless (empty : Bool) (name : String) (value : Json) : List (String × Json) :=
  if empty then [] else [(name, value)]

/-- A field that is left out when it has no value. -/
def fieldOf? (name : String) (value : Option Json) : List (String × Json) :=
  match value with
  | some j => [(name, j)]
  | none => []

/-- A field of text that is left out when the text is empty. -/
def textUnlessEmpty (name : String) (value : String) : List (String × Json) :=
  fieldUnless value.isEmpty name (.string value)

/-- A map of texts. -/
def ofTextDict (d : Dict String) : Json := .object (d.map Json.string).entries

end Json

end Reconcile
