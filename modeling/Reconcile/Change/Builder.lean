import Reconcile.ChangeId
import Reconcile.Failure

/-!
# Change/Builder — new changes with fresh identifiers

Identifiers are numbered from one in the order in which changes are built.  A change whose required
fields are not all there is refused before it takes a number.
-/

namespace Reconcile

/-- How many identifiers have been issued. -/
abbrev Issued := Nat

/-- Identifiers are counted in 64 bits. -/
def nextPosition (issued : Issued) : Nat := (issued + 1) % ChangeId.positionLimit

/-- The next identifier. -/
def freshId (issued : Issued) (action : Action) (kind ref : String) : String :=
  (ChangeId.mk (nextPosition issued) action kind ref).text

/-- The first required field that is missing. -/
def missingField? (required : List String) (fields : FieldMap) : Option String :=
  required.find? fun key => !fields.contains key

/-- Refuses fields among which a required one is missing. -/
def checkRequired (kind ref : String) (required : List String) (fields : FieldMap) :
    Except DocumentFault Unit :=
  match missingField? required fields with
  | some field => .error (.missingField kind ref field)
  | none => .ok ()

/-- What a create is made from. -/
structure CreateRequest where
  kind : String
  ref : String
  scope : String := ""
  fields : FieldMap := ∅
  required : List String := []
  protect : Option Bool := none
  parent : Option Parent := none
  dependsOn : List String := []

/-- Builds a create. -/
def CreateRequest.build (r : CreateRequest) (issued : Issued) :
    Except DocumentFault (Change × Issued) := do
  checkRequired r.kind r.ref r.required r.fields
  return ({
    id := freshId issued .create r.kind r.ref
    kind := r.kind
    ref := r.ref
    action := .create
    fields := r.fields
    parent := r.parent
    protection := r.protect.map .status
    scope := r.scope
    dependsOn := r.dependsOn }, issued + 1)

/-- A create that is built has all that is requested. -/
theorem CreateRequest.eq_of_build {r : CreateRequest} {issued : Issued} {built : Change × Issued}
    (h : r.build issued = .ok built) : built = ({
      id := freshId issued .create r.kind r.ref
      kind := r.kind
      ref := r.ref
      action := .create
      fields := r.fields
      parent := r.parent
      protection := r.protect.map .status
      scope := r.scope
      dependsOn := r.dependsOn }, issued + 1) := by
  unfold build at h
  cases hcheck : checkRequired r.kind r.ref r.required r.fields <;> rw [hcheck] at h
  · cases h
  · exact (Except.ok.inj h).symm

/-- What an update is made from. -/
structure UpdateRequest where
  kind : String
  ref : String
  resourceId : String
  scope : String := ""
  fields : FieldMap := ∅
  required : List String := []
  flip : Option Flip := none
  parent : Option Parent := none
  dependsOn : List String := []

/-- Builds an update; a flip that changes nothing is dropped. -/
def UpdateRequest.build (r : UpdateRequest) (issued : Issued) :
    Except DocumentFault (Change × Issued) := do
  checkRequired r.kind r.ref r.required r.fields
  return ({
    id := freshId issued .update r.kind r.ref
    kind := r.kind
    ref := r.ref
    resourceId := some r.resourceId
    action := .update
    fields := r.fields
    parent := r.parent
    protection := (r.flip.filter Flip.isChange).map .flip
    scope := r.scope
    dependsOn := r.dependsOn }, issued + 1)

/-- An update that is built has all that is requested. -/
theorem UpdateRequest.eq_of_build {r : UpdateRequest} {issued : Issued} {built : Change × Issued}
    (h : r.build issued = .ok built) : built = ({
      id := freshId issued .update r.kind r.ref
      kind := r.kind
      ref := r.ref
      resourceId := some r.resourceId
      action := .update
      fields := r.fields
      parent := r.parent
      protection := (r.flip.filter Flip.isChange).map .flip
      scope := r.scope
      dependsOn := r.dependsOn }, issued + 1) := by
  unfold build at h
  cases hcheck : checkRequired r.kind r.ref r.required r.fields <;> rw [hcheck] at h
  · cases h
  · exact (Except.ok.inj h).symm

/-- Builds an update that changes the protection and nothing else. -/
def buildFlip (kind ref resourceId scope : String) (flip : Flip) (issued : Issued) :
    Change × Issued :=
  ({
    id := freshId issued .update kind ref
    kind := kind
    ref := ref
    resourceId := some resourceId
    action := .update
    protection := some (.flip flip)
    scope := scope }, issued + 1)

/-- What a delete is made from; `ref` is the current name where no declaration exists. -/
structure DeleteRequest where
  kind : String
  ref : String
  resourceId : String
  scope : String := ""
  parent : Option Parent := none
  monikers : Dict String := ∅

/-- Builds a delete. -/
def DeleteRequest.build (r : DeleteRequest) (issued : Issued) : Change × Issued :=
  ({
    id := freshId issued .delete r.kind r.ref
    kind := r.kind
    ref := r.ref
    resourceId := some r.resourceId
    monikers := r.monikers
    action := .delete
    parent := r.parent
    scope := r.scope }, issued + 1)

end Reconcile
