import Reconcile.Declaration

/-!
# Accessors — reading fields out of declared resources

An accessor is registered for a kind and a path, or for any kind; one for the kind itself wins, even
where it reads nothing, and of two for the same kind and path the later one.
-/

namespace Reconcile

/-- Stands for every kind. -/
def anyKind : String := "*"

/-- Reads one field of a resource. -/
abbrev Accessor (ρ : Type) := ρ → Option Value

/-- Accessors by kind and path, the latest registration first. -/
structure Accessors (ρ : Type) where
  entries : List ((String × String) × Accessor ρ) := []

namespace Accessors

variable {ρ : Type}

/-- The table with one more accessor. -/
def register (t : Accessors ρ) (kind path : String) (read : Accessor ρ) : Accessors ρ :=
  ⟨((kind, path), read) :: t.entries⟩

/-- The accessor used for a path of a kind. -/
def lookup? (t : Accessors ρ) (kind path : String) : Option (Accessor ρ) :=
  (t.entries.lookup (kind, path)).or (t.entries.lookup (anyKind, path))

/-- There is an accessor for a path of a kind. -/
def contains (t : Accessors ρ) (kind path : String) : Bool := (t.lookup? kind path).isSome

/-- Reads a field. -/
def read? (t : Accessors ρ) (kind path : String) (r : ρ) : Option Value :=
  (t.lookup? kind path).bind fun read => read r

/-- The paths registered for a kind, ascending. -/
def paths (t : Accessors ρ) (kind : String) : List String :=
  sortedSet ((t.entries.filter fun e => e.1.1 == kind || e.1.1 == anyKind).map (·.1.2))

/-- Reads every field registered for a kind. -/
def readAll (t : Accessors ρ) (kind : String) (r : ρ) : FieldMap :=
  Dict.ofList ((t.paths kind).filterMap fun path => (t.read? kind path r).map fun v => (path, v))

/-- The kinds and paths registered, ascending. -/
def keys (t : Accessors ρ) : List (String × String) :=
  (sortedSet (t.entries.map (·.1.1))).flatMap fun kind =>
    (sortedSet ((t.entries.filter fun e => e.1.1 == kind).map (·.1.2))).map fun path => (kind, path)

end Accessors

/-- The field for a name. -/
def nameField : String := "name"

/-- The field for a remote identifier. -/
def idField : String := "id"

/-- The field for a description. -/
def descriptionField : String := "description"

/-- The field for labels. -/
def labelsField : String := "labels"

/-- The accessors for what every declaration has. -/
def standardAccessors : Accessors Declaration :=
  let none : Accessors Declaration := {}
  (((none.register anyKind nameField fun d => some (.text d.name)).register
    anyKind idField fun d => d.id.map Value.text).register
    anyKind descriptionField fun d => d.description.toField Value.text).register
    anyKind labelsField fun d => d.labels.toField Value.ofTexts

end Reconcile
