import Reconcile.Pass
import Reconcile.Proofs.Accessors
import Reconcile.Proofs.Comparison

/-!
# Proofs/Creation — a create sends what a comparison asks for

The fields of a create and the comparison of fields are written apart from each other.  A resource
**mirrors** a declaration in a namespace when it is a managed resource there, has the name and the
protection that are declared, and meets the declaration, so that the comparison finds nothing to send
(`Resource.Mirrors`).  Main fact: `mirrors_created` — the resource that the fields of a create
describe mirrors the declaration, whatever labels the user gives in place of those of the tool.
-/

namespace Reconcile

/-! ## What a create sends -/

/-- The fields that the standard accessors read. -/
def standardFields : List String := [nameField, idField, descriptionField, labelsField]

/-- The labels of the user that are declared. -/
def Declaration.givenLabels (d : Declaration) : Dict String :=
  match d.labels with
  | .value labels => userLabels labels
  | _ => ∅

/-- The labels of a new resource: those of the user, and those of the tool. -/
def Declaration.createdLabels (d : Declaration) (scope : String) : Dict String :=
  d.givenLabels.union (managementLabels scope d.isProtected)

section Sending

variable {d : Declaration} {scope kind key : String}

/-- **What is sent for a field**: labels, or what the standard accessors read, or what is
declared. -/
theorem get?_createFields (kind scope : String) (d : Declaration) (key : String) :
    (createFields standardAccessors kind scope d).get? key
      = if key = labelsField then some (.ofTexts (d.createdLabels scope))
        else (standardAccessors.read? kind key d).or (d.fields.get? key) := by
  change ((d.fields.union (standardAccessors.readAll kind d)).insert labelsField
    (.ofTexts (d.createdLabels scope))).get? key = _
  rw [Dict.get?_insert, Dict.get?_union, Accessors.get?_readAll]

theorem get?_createFields_labels {accessors : Accessors Declaration} :
    (createFields accessors kind scope d).get? labelsField
      = some (.ofTexts (d.createdLabels scope)) :=
  Dict.get?_insert_self ..

theorem get?_createFields_name :
    (createFields standardAccessors kind scope d).get? nameField = some (.text d.name) := by
  rw [get?_createFields, read?_standardAccessors]
  rfl

theorem get?_createFields_description :
    (createFields standardAccessors kind scope d).get? descriptionField
      = (d.description.toField .text).or (d.fields.get? descriptionField) := by
  rw [get?_createFields, read?_standardAccessors]
  rfl

/-- Any other field is as it is declared. -/
theorem get?_createFields_of_not_standard (h : key ∉ standardFields) :
    (createFields standardAccessors kind scope d).get? key = d.fields.get? key := by
  simp only [standardFields, List.mem_cons, List.not_mem_nil, or_false, not_or] at h
  obtain ⟨hname, hid, hdescription, hlabels⟩ := h
  rw [get?_createFields, read?_standardAccessors, if_neg hlabels, if_neg hlabels,
    if_neg hdescription, if_neg hid, if_neg hname, Option.none_or]

/-- **The labels of the tool**: a mark, the namespace, and a mark where there is protection. -/
theorem get?_managementLabels (scope : String) (isProtected : Bool) (key : String) :
    (managementLabels scope isProtected).get? key
      = if key = protectedLabel ∧ isProtected = true then some "true"
        else if key = namespaceLabel then some scope
        else if key = managedLabel then some "true"
        else none := by
  unfold managementLabels Dict.singleton
  rcases isProtected with _ | _ <;> simp [Dict.get?_insert]

theorem isManagementLabel_of_managementLabels {protect : Bool}
    (h : (managementLabels scope protect).get? key ≠ none) : isManagementLabel key = true := by
  rw [get?_managementLabels] at h
  split_ifs at h with hkey hkey hkey
  · rw [hkey.1]
    decide
  · rw [hkey]
    decide
  · rw [hkey]
    decide
  · exact absurd rfl h

theorem get?_userLabels (labels : Dict String) (key : String) : (userLabels labels).get? key
    = if isManagementLabel key then none else labels.get? key := by
  rw [userLabels, Dict.get?_filter]
  rcases isManagementLabel key with _ | _ <;> rcases labels.get? key with _ | v <;> rfl

theorem get?_givenLabels_of_own (h : isManagementLabel key = true) :
    d.givenLabels.get? key = none := by
  unfold Declaration.givenLabels
  split
  · rw [get?_userLabels, if_pos h]
  · rfl

/-- **The labels of the tool are its own**, whatever the user gives in their place. -/
theorem get?_createdLabels_of_own (h : isManagementLabel key = true) :
    (d.createdLabels scope).get? key = (managementLabels scope d.isProtected).get? key := by
  rw [Declaration.createdLabels, Dict.get?_union, get?_givenLabels_of_own h, Option.or_none]

/-- **The labels of the user are the declared ones.** -/
theorem userLabels_createdLabels : userLabels (d.createdLabels scope) = d.givenLabels := by
  refine Dict.ext_get? fun key => ?_
  rw [get?_userLabels]
  split
  · next hown => exact (get?_givenLabels_of_own hown).symm
  · next hown =>
    have hnone : (managementLabels scope d.isProtected).get? key = none := by
      by_contra hsome
      exact hown (isManagementLabel_of_managementLabels hsome)
    rw [Declaration.createdLabels, Dict.get?_union, hnone, Option.none_or]

end Sending

/-! ## Resources with the fields of a create -/

/-- The resource that fields describe; its name and its labels are among them. -/
def Resource.ofFields (id kind : String) (fields : FieldMap) : Resource where
  id := id
  kind := kind
  name := ((fields.get? nameField).bind Value.text?).getD ""
  labels := ((fields.get? labelsField).map Value.texts).getD ∅
  fields := fields

/-- **A resource mirrors a declaration in a namespace.** -/
structure Resource.Mirrors (r : Resource) (d : Declaration) (scope : String) : Prop where
  kind : r.kind = d.kind
  name : r.name = d.name
  managed : r.isManaged = true
  placed : r.scope = scope
  guarded : r.isProtected = d.isProtected
  met : d.MetBy r
  compared : compareFields d r = (false, ∅)

section Created

variable {d : Declaration} {scope kind : String}

/-- The resource that a create for a declaration describes. -/
def Declaration.created (d : Declaration) (id kind scope : String) : Resource :=
  .ofFields id d.kind (createFields standardAccessors kind scope d)

theorem fields_created (d : Declaration) (id kind scope : String) :
    (d.created id kind scope).fields = createFields standardAccessors kind scope d := rfl

theorem labels_created (d : Declaration) (id kind scope : String) :
    (d.created id kind scope).labels = d.createdLabels scope := by
  change (((createFields standardAccessors kind scope d).get? labelsField).map Value.texts).getD ∅
    = _
  rw [get?_createFields_labels, Option.map_some, Value.texts_ofTexts, Option.getD_some]

theorem name_created (d : Declaration) (id kind scope : String) :
    (d.created id kind scope).name = d.name := by
  change (((createFields standardAccessors kind scope d).get? nameField).bind Value.text?).getD ""
    = _
  rw [get?_createFields_name]
  rfl

/-- **A resource with the fields of a create meets the declaration.** -/
theorem metBy_created (hfields : ∀ key ∈ standardFields, d.fields.get? key = none) (id : String) :
    d.MetBy (d.created id kind scope) where
  described s hs := by
    rw [fields_created, get?_createFields_description, hs]
    rfl
  undescribed hcleared v hv := by
    rw [fields_created, get?_createFields_description, hcleared] at hv
    exact (Option.some.inj hv).symm
  labelled labels hlabels := by
    rw [labels_created, userLabels_createdLabels, Declaration.givenLabels, hlabels]
  unlabelled hcleared := by
    rw [labels_created, userLabels_createdLabels, Declaration.givenLabels, hcleared]
  fields field v hv _ := by
    have hkey : field ∉ standardFields := fun hkey =>
      absurd ((hfields field hkey).symm.trans hv) (by simp)
    exact ⟨v, by rw [fields_created, get?_createFields_of_not_standard hkey, hv], BEq.rfl⟩

/-- **A resource with the fields of a create mirrors the declaration.** -/
theorem mirrors_created (hfields : ∀ key ∈ standardFields, d.fields.get? key = none) (id : String) :
    (d.created id kind scope).Mirrors d scope where
  kind := rfl
  name := name_created d id kind scope
  managed := by
    rw [Resource.isManaged, Resource.hasMark, labels_created,
      get?_createdLabels_of_own (by decide), get?_managementLabels,
      if_neg fun hkey => absurd hkey.1 (by decide), if_neg (by decide), if_pos rfl]
    decide
  placed := by
    rw [Resource.scope, labels_created, get?_createdLabels_of_own (by decide),
      get?_managementLabels, if_neg fun hkey => absurd hkey.1 (by decide)]
    rfl
  guarded := by
    rw [Resource.isProtected, Resource.hasMark, labels_created,
      get?_createdLabels_of_own (by decide), get?_managementLabels]
    rcases d.isProtected with _ | _
    · rw [if_neg (by simp), if_neg (by decide), if_neg (by decide)]
      rfl
    · rw [if_pos ⟨rfl, rfl⟩]
      decide
  met := metBy_created hfields id
  compared := compareFields_eq_iff.mpr (metBy_created hfields id)

end Created

end Reconcile
