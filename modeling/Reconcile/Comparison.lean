import Reconcile.Resolution

/-!
# Comparison — what differs between a declaration and an existing resource

Fields that hold references do not take part: what exists has an identifier where the declaration
has a name.  An absent description and absent labels are left alone, and a cleared one asks for
nothing to be there.
-/

namespace Reconcile

/-- Decides whether a resource needs an update, and which fields it sends. -/
abbrev Comparator := Declaration → Resource → Bool × FieldMap

/-- The description to send, if it differs.  A cleared one agrees with a missing one. -/
def descriptionChange? (d : Declaration) (r : Resource) : Option Value :=
  match d.description.toField Value.text with
  | none => none
  | some wanted =>
    let agrees := match r.fields.get? descriptionField with
      | some existing => existing == wanted
      | none => wanted.isNull
    if agrees then none else some wanted

/-- The labels to send, if those of the user differ. -/
def labelsChange? (d : Declaration) (r : Resource) : Option Value :=
  match d.labels with
  | .absent => none
  | .null => if (userLabels r.labels).isEmpty then none else some .null
  | .value labels => if userLabelsDiffer r.labels labels then some (.ofTexts labels) else none

/-- A declared field does not hold a reference and has another value. -/
def fieldDiffers (r : Resource) (field : String) (v : Value) : Bool :=
  !holdsReference field v && r.fields.get? field != some v

/-- The fields to send: description and labels where they differ, then the declared fields that
differ. -/
def changedFields (d : Declaration) (r : Resource) : FieldMap :=
  let start := match descriptionChange? d r with
    | some v => (∅ : FieldMap).insert descriptionField v
    | none => ∅
  let labelled := match labelsChange? d r with
    | some v => start.insert labelsField v
    | none => start
  (d.fields.filter (fieldDiffers r)).entries.foldl (fun m e => m.insert e.1 e.2) labelled

/-- Compares description, labels of the user, and declared fields. -/
def compareFields : Comparator := fun d r =>
  let changed := changedFields d r
  (!changed.isEmpty, changed)

end Reconcile
