import Reconcile.Failure
import Reconcile.Label
import Reconcile.Plan.Document
import Reconcile.StringSet

/-!
# Resource — what exists on the remote side

A snapshot lists the resources that exist at one time and, perhaps, the kinds that it covers.
-/

namespace Reconcile

/-- A resource as it exists. -/
structure Resource where
  id : String
  kind : String
  name : String
  labels : Dict String := ∅
  fields : FieldMap := ∅
deriving BEq, Inhabited

namespace Resource

/-- A label is set to true. -/
def hasMark (r : Resource) (label : String) : Bool := (r.labels.get? label).any isTrueText

/-- The namespace that the labels tell. -/
def scope (r : Resource) : String := (r.labels.get? namespaceLabel).getD defaultNamespace

/-- The resource is marked as protected. -/
def isProtected (r : Resource) : Bool := r.hasMark protectedLabel

/-- The resource is marked as managed. -/
def isManaged (r : Resource) : Bool := r.hasMark managedLabel

/-- The document of a resource. -/
def toJson (r : Resource) : Json := .ofParts [
  Json.field "id" (.string r.id),
  Json.field "type" (.string r.kind),
  Json.field "name" (.string r.name),
  Json.fieldUnless r.labels.isEmpty "labels" (Json.ofTextDict r.labels),
  Json.fieldUnless r.fields.isEmpty "fields" (FieldMap.toJson r.fields)]

/-- Reads a resource. -/
def decode? {δ : Type} [Source δ] (d : δ) : Option Resource := do
  let r ← Record.of? ["id", "type", "name", "labels", "fields"] d
  return {
    id := ← r.required "id" Source.text?
    kind := ← r.required "type" Source.text?
    name := ← r.required "name" Source.text?
    labels := ← r.orElse "labels" Source.textDict? ∅
    fields := ← r.orElse "fields" FieldMap.decode? ∅ }

end Resource

/-- The resources that exist at one time.  Without a set of kinds a snapshot covers every kind. -/
structure Snapshot where
  configured : Option StringSet := none
  resources : List Resource := []
deriving Inhabited

namespace Snapshot

/-- The document of a snapshot. -/
def toJson (s : Snapshot) : Json := .ofParts [
  Json.fieldOf? "configured_types" (s.configured.map fun kinds => Json.strings kinds.members),
  Json.field "resources" (.array (s.resources.map Resource.toJson))]

/-- Reads a snapshot. -/
def decode? {δ : Type} [Source δ] (d : δ) : Option Snapshot := do
  let r ← Record.of? ["configured_types", "resources"] d
  return {
    configured :=
      ← r.optional "configured_types" fun v => (Source.texts? v).map StringSet.ofList
    resources := ← r.orElse "resources" (Source.list? Resource.decode?) [] }

/-- The snapshot covers a kind. -/
def covers (s : Snapshot) (kind : String) : Bool :=
  s.configured.all fun kinds => kinds.contains kind

/-- The kinds of the resources in a snapshot. -/
def kinds (s : Snapshot) : List String := sortedSet (s.resources.map (·.kind))

end Snapshot

end Reconcile
