import Reconcile.Value

/-!
# Change — one planned create, update or delete

A change carries the fields to send, what is known of the references among them, and the identifiers
of the changes that must run first.
-/

namespace Reconcile

/-- What a change does to its resource. -/
inductive Action where
  | create
  | update
  | delete
deriving DecidableEq, Inhabited

namespace Action

/-- The letter that stands for an action in change identifiers. -/
def letter : Action → Char
  | .create => 'c'
  | .update => 'u'
  | .delete => 'd'

/-- The action a letter stands for. -/
def ofLetter? : Char → Option Action
  | 'c' => some .create
  | 'u' => some .update
  | 'd' => some .delete
  | _ => none

/-- The name of an action in documents. -/
def name : Action → String
  | .create => "CREATE"
  | .update => "UPDATE"
  | .delete => "DELETE"

/-- The action of a name. -/
def ofName? : String → Option Action
  | "CREATE" => some .create
  | "UPDATE" => some .update
  | "DELETE" => some .delete
  | _ => none

@[simp] theorem ofLetter?_letter (a : Action) : ofLetter? a.letter = some a := by
  cases a <;> rfl

@[simp] theorem ofName?_name (a : Action) : ofName? a.name = some a := by
  cases a <;> rfl

end Action

/-- A change of the protection of a resource: before and after. -/
structure Flip where
  old : Bool
  new : Bool
deriving DecidableEq, Inhabited

/-- The protection really changes. -/
def Flip.isChange (f : Flip) : Bool := f.old != f.new

/-- What a change says about protection: the status a new resource gets, or a flip. -/
inductive Protection where
  | status (on : Bool)
  | flip (flip : Flip)
deriving DecidableEq

/-- The flip that a change performs, if it performs one. -/
def Protection.flip? : Protection → Option Flip
  | .flip f => some f
  | .status _ => none

/-- What is known of the references in one field.  A scalar field uses `target`, `id` and `hints`; a
list field uses `targets`, `ids` and `hintLists`, item by item. -/
structure ResolvedField where
  target : String := ""
  id : String := ""
  hints : Dict String := ∅
  targets : List String := []
  ids : List String := []
  hintLists : Dict (List String) := ∅
  isList : Bool := false
deriving DecidableEq, Inhabited

/-- The parent of a change's resource; without an identifier it does not exist yet. -/
structure Parent where
  kind : String
  ref : String
  id : Option String := none
deriving DecidableEq, Inhabited

/-- One planned create, update or delete.  `kind` is the type of the resource and `scope` its
namespace. -/
structure Change where
  id : String
  kind : String
  ref : String
  resourceId : Option String := none
  monikers : Dict String := ∅
  action : Action
  fields : FieldMap := ∅
  references : Dict ResolvedField := ∅
  parent : Option Parent := none
  protection : Option Protection := none
  scope : String := ""
  dependsOn : List String := []
deriving BEq, Inhabited

namespace Change

/-- Adds a dependency, unless it is the change itself or listed already. -/
def addDependency (c : Change) (id : String) : Change :=
  if id = c.id ∨ id ∈ c.dependsOn then c else { c with dependsOn := c.dependsOn ++ [id] }

/-- The change creates a resource of this kind and reference. -/
def creates (c : Change) (kind ref : String) : Bool :=
  c.action == .create && c.kind == kind && c.ref == ref

/-- The protection flip that a change performs. -/
def flip? (c : Change) : Option Flip :=
  match c.protection with
  | some p => (p.flip?).filter Flip.isChange
  | none => none

end Change

end Reconcile
