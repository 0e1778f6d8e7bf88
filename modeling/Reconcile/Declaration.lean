import Reconcile.Label
import Reconcile.Plan.Document
import Reconcile.StringSet
import Reconcile.Text.Blank

/-!
# Declaration — the desired state

A desired state is a list of declared resources with defaults for the whole document.  A declaration
lives in the namespace it names, else in the default one.
-/

namespace Reconcile

/-- Points from a declaration to the declaration of its parent. -/
structure ParentRef where
  kind : String
  ref : String
deriving DecidableEq, Inhabited

/-- One declared resource; the identifier is declared to adopt an existing resource, or filled in
when one is found. -/
structure Declaration where
  kind : String
  ref : String
  name : String
  id : Option String := none
  scope : Option String := none
  protect : Option Bool := none
  description : Nullable String := .absent
  labels : Nullable (Dict String) := .absent
  parent : Option ParentRef := none
  fields : FieldMap := ∅
deriving BEq, Inhabited

/-- The resource is declared protected. -/
def Declaration.isProtected (d : Declaration) : Bool := d.protect.getD false

/-- What holds for a whole document: the namespace of declarations that name none, further
namespaces to reconcile, and the generator to record in plans. -/
structure Defaults where
  scope : Option String := none
  scopes : List String := []
  generator : Option String := none
deriving DecidableEq, Inhabited

/-- The desired state. -/
structure DesiredState where
  defaults : Defaults := {}
  resources : List Declaration := []
deriving BEq, Inhabited

namespace DesiredState

/-- The namespace of declarations that name none. -/
def defaultScope (s : DesiredState) : String :=
  match s.defaults.scope with
  | some name => if isBlankText name then defaultNamespace else trim name
  | none => defaultNamespace

/-- The namespace that a declaration lives in. -/
def scopeOf (s : DesiredState) (d : Declaration) : String :=
  match d.scope with
  | some name => if (trim name).isEmpty then s.defaultScope else trim name
  | none => s.defaultScope

/-- The namespaces that declarations live in, ascending. -/
def scopes (s : DesiredState) : List String := sortedSet (s.resources.map s.scopeOf)

/-- The namespaces that are reconciled whether or not a declaration lives there, ascending. -/
def defaultScopes (s : DesiredState) : List String :=
  sortedSet (s.defaultScope :: (s.defaults.scopes.map trim).filter fun name => !name.isEmpty)

/-- The declared kinds, ascending. -/
def kinds (s : DesiredState) : List String := sortedSet (s.resources.map (·.kind))

/-- The declarations of a kind in a namespace. -/
def inScope (s : DesiredState) (kind scope : String) : List Declaration :=
  s.resources.filter fun d => d.kind == kind && s.scopeOf d == scope

/-- The first declaration of a kind with a reference. -/
def get? (s : DesiredState) (kind ref : String) : Option Declaration :=
  s.resources.find? fun d => d.kind == kind && d.ref == ref

/-- The first declaration with a reference, of a kind if one is given. -/
def find? (s : DesiredState) (kind : Option String) (ref : String) : Option Declaration :=
  s.resources.find? fun d => d.ref == ref && kind.all fun k => d.kind == k

/-- The number of kinds that declare a reference. -/
def kindCount (s : DesiredState) (ref : String) : Nat :=
  (sortedSet ((s.resources.filter fun d => d.ref == ref).map (·.kind))).length

/-- Overrides of the defaults that the surroundings make: a value of blanks does not count. -/
def override (s : DesiredState) (look : String → Option String) : DesiredState :=
  let given (name : String) := (look name).filter fun v => !isBlankText v
  { s with defaults := { s.defaults with
      scope := (given "DECLPLAN_DEFAULT_NAMESPACE").or s.defaults.scope
      generator := (given "DECLPLAN_GENERATOR").or s.defaults.generator } }

end DesiredState

/-! ## Documents -/

/-- A field that is left out when nothing is declared. -/
def Nullable.field {α : Type} (name : String) (write : α → Json) : Nullable α → List (String × Json)
  | .absent => []
  | .null => [(name, .null)]
  | .value a => [(name, write a)]

/-- Reads a field that may be cleared. -/
def Record.nullable {δ α : Type} [Source δ] (r : Record δ) (name : String)
    (decode : δ → Option α) : Option (Nullable α) :=
  match r.fields.lookup name with
  | none => some .absent
  | some d => if Source.isNothing d then some .null else (decode d).map .value

/-- The document of a pointer to a parent. -/
def ParentRef.toJson (p : ParentRef) : Json :=
  .object [("type", .string p.kind), ("ref", .string p.ref)]

/-- The document of a declaration. -/
def Declaration.toJson (d : Declaration) : Json := .ofParts [
  Json.field "type" (.string d.kind),
  Json.field "ref" (.string d.ref),
  Json.field "name" (.string d.name),
  Json.fieldOf? "id" (d.id.map .string),
  Json.fieldOf? "namespace" (d.scope.map .string),
  Json.fieldOf? "protected" (d.protect.map .bool),
  d.description.field "description" .string,
  d.labels.field "labels" Json.ofTextDict,
  Json.fieldOf? "parent" (d.parent.map ParentRef.toJson),
  Json.fieldUnless d.fields.isEmpty "fields" (FieldMap.toJson d.fields)]

/-- The document of the defaults. -/
def Defaults.toJson (d : Defaults) : Json := .ofParts [
  Json.fieldOf? "namespace" (d.scope.map .string),
  Json.fieldUnless d.scopes.isEmpty "namespaces" (Json.strings d.scopes),
  Json.fieldOf? "generator" (d.generator.map .string)]

/-- The document of a desired state. -/
def DesiredState.toJson (s : DesiredState) : Json :=
  .object [
    ("defaults", s.defaults.toJson),
    ("resources", .array (s.resources.map Declaration.toJson))]

variable {δ : Type} [Source δ]

/-- Reads a pointer to a parent. -/
def ParentRef.decode? (d : δ) : Option ParentRef := do
  let r ← Record.of? ["type", "ref"] d
  return ⟨← r.required "type" Source.text?, ← r.required "ref" Source.text?⟩

/-- Reads a declaration. -/
def Declaration.decode? (d : δ) : Option Declaration := do
  let r ← Record.of? ["type", "ref", "name", "id", "namespace", "protected", "description",
    "labels", "parent", "fields"] d
  return {
    kind := ← r.required "type" Source.text?
    ref := ← r.required "ref" Source.text?
    name := ← r.required "name" Source.text?
    id := ← r.optional "id" Source.text?
    scope := ← r.optional "namespace" Source.text?
    protect := ← r.optional "protected" Source.bool?
    description := ← r.nullable "description" Source.text?
    labels := ← r.nullable "labels" Source.textDict?
    parent := ← r.optional "parent" ParentRef.decode?
    fields := ← r.orElse "fields" FieldMap.decode? ∅ }

/-- Reads the defaults. -/
def Defaults.decode? (d : δ) : Option Defaults := do
  let r ← Record.of? ["namespace", "namespaces", "generator"] d
  return {
    scope := ← r.optional "namespace" Source.text?
    scopes := ← r.orElse "namespaces" Source.texts? []
    generator := ← r.optional "generator" Source.text? }

/-- Reads a desired state. -/
def DesiredState.decode? (d : δ) : Option DesiredState := do
  let r ← Record.of? ["defaults", "resources"] d
  return {
    defaults := ← r.orElse "defaults" Defaults.decode? {}
    resources := ← r.orElse "resources" (Source.list? Declaration.decode?) [] }

end Reconcile
