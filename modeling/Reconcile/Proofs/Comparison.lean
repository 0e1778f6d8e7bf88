import Reconcile.Comparison
import Reconcile.Proofs.Dict
import Reconcile.Proofs.Documents.Values

/-!
# Proofs/Comparison — updates converge

A resource **meets** a declaration when it has the description and the labels of the user that are
declared, and every declared field that is no reference (`Declaration.MetBy`); this is where the
comparison finds nothing to send (`compareFields_eq_iff`).  What it finds elsewhere is all that is
missing: main fact `compareFields_sent` — a resource that has been sent it meets the declaration.
-/

namespace Reconcile

/-- **A resource meets a declaration**: nothing that is declared differs. -/
structure Declaration.MetBy (d : Declaration) (r : Resource) : Prop where
  described : ∀ s, d.description = .value s → r.fields.get? descriptionField = some (.text s)
  undescribed : d.description = .null → ∀ v, r.fields.get? descriptionField = some v → v = .null
  labelled : ∀ labels, d.labels = .value labels → userLabels r.labels = userLabels labels
  unlabelled : d.labels = .null → userLabels r.labels = ∅
  fields : ∀ field v, d.fields.get? field = some v → holdsReference field v = false →
    ∃ w, r.fields.get? field = some w ∧ (w == v) = true

variable {d : Declaration} {r : Resource} {v : Value}

/-! ## What is sent -/

theorem Value.beq_text_iff {s : String} : (v == .text s) = true ↔ v = .text s := by
  change same v (.text s) = true ↔ v = .text s
  cases v <;> simp [same]

theorem Value.beq_null_iff : (v == .null) = true ↔ v = .null := by
  change same v .null = true ↔ v = .null
  cases v <;> simp [same]

/-- The description that is sent is the declared one. -/
theorem toField_of_descriptionChange? (h : descriptionChange? d r = some v) :
    d.description.toField .text = some v := by
  unfold descriptionChange? at h
  rcases hwanted : d.description.toField .text with _ | wanted <;> rw [hwanted] at h
  · exact absurd h (by simp)
  · exact (Option.ite_none_left_eq_some.mp h).2

theorem descriptionChange?_eq_none_iff : descriptionChange? d r = none
    ↔ (∀ s, d.description = .value s → r.fields.get? descriptionField = some (.text s))
      ∧ (d.description = .null → ∀ v, r.fields.get? descriptionField = some v → v = .null) := by
  unfold descriptionChange?
  rcases d.description with _ | _ | s <;> rcases r.fields.get? descriptionField with _ | existing <;>
    simp [Nullable.toField, Value.isNull, Value.beq_text_iff, Value.beq_null_iff]

/-- The labels that are sent are the declared ones. -/
theorem toField_of_labelsChange? (h : labelsChange? d r = some v) :
    d.labels.toField .ofTexts = some v := by
  unfold labelsChange? at h
  rcases hlabels : d.labels with _ | _ | labels <;> rw [hlabels] at h
  · exact absurd h (by simp)
  · exact (Option.ite_none_left_eq_some.mp h).2
  · exact (Option.ite_none_right_eq_some.mp h).2

theorem userLabelsDiffer_eq_false_iff {current desired : Dict String} :
    userLabelsDiffer current desired = false ↔ userLabels current = userLabels desired := by
  rw [userLabelsDiffer, bne_eq_false_iff_eq]

theorem labelsChange?_eq_none_iff : labelsChange? d r = none
    ↔ (∀ labels, d.labels = .value labels → userLabels r.labels = userLabels labels)
      ∧ (d.labels = .null → userLabels r.labels = ∅) := by
  unfold labelsChange?
  rcases d.labels with _ | _ | labels
  · simp
  · simp [Dict.isEmpty_iff]
  · simp [← userLabelsDiffer_eq_false_iff]

theorem fieldDiffers_eq_false_iff {field : String} : fieldDiffers r field v = false
    ↔ (holdsReference field v = false → ∃ w, r.fields.get? field = some w ∧ (w == v) = true) := by
  unfold fieldDiffers
  rcases holdsReference field v <;> rcases r.fields.get? field with _ | w <;> simp [bne]

/-- What is sent besides declared fields. -/
def attributeChange? (d : Declaration) (r : Resource) (key : String) : Option Value :=
  if key = labelsField then labelsChange? d r
  else if key = descriptionField then descriptionChange? d r
  else none

theorem attributeChange?_labelsField (d : Declaration) (r : Resource) :
    attributeChange? d r labelsField = labelsChange? d r := if_pos rfl

theorem attributeChange?_descriptionField (d : Declaration) (r : Resource) :
    attributeChange? d r descriptionField = descriptionChange? d r := rfl

/-- **What is sent for a field**: the declared value where it differs, and else what is sent besides
declared fields. -/
theorem get?_changedFields (d : Declaration) (r : Resource) (key : String) :
    (changedFields d r).get? key
      = ((d.fields.get? key).filter (fieldDiffers r key)).or (attributeChange? d r key) := by
  unfold changedFields attributeChange?
  rw [← Dict.union, Dict.get?_union, Dict.get?_filter]
  congr 1
  have hne : labelsField ≠ descriptionField := by decide
  by_cases hlabels : key = labelsField
  · subst hlabels
    rcases labelsChange? d r with _ | v <;> rcases descriptionChange? d r with _ | w <;>
      simp [Dict.get?_insert, hne]
  · rcases labelsChange? d r with _ | v <;> rcases descriptionChange? d r with _ | w <;>
      simp [Dict.get?_insert, hlabels]

/-- Nothing is sent where neither attributes nor declared fields differ. -/
theorem changedFields_eq_empty_iff : changedFields d r = ∅
    ↔ descriptionChange? d r = none ∧ labelsChange? d r = none
      ∧ ∀ field v, d.fields.get? field = some v → fieldDiffers r field v = false := by
  simp only [Dict.eq_empty_iff, get?_changedFields, Option.or_eq_none_iff,
    Option.filter_eq_none_iff, Bool.not_eq_true]
  constructor
  · intro h
    exact ⟨(h descriptionField).2, (h labelsField).2, fun field => (h field).1⟩
  · rintro ⟨hdescription, hlabels, hfields⟩ key
    refine ⟨hfields key, ?_⟩
    unfold attributeChange?
    split
    · exact hlabels
    · split
      · exact hdescription
      · rfl

theorem compareFields_eq_iff_changedFields :
    compareFields d r = (false, ∅) ↔ changedFields d r = ∅ := by
  unfold compareFields
  constructor
  · exact fun h => (Prod.mk.inj h).2
  · intro h
    rw [h]
    rfl

/-- **The comparison finds nothing exactly where a resource meets the declaration.** -/
theorem compareFields_eq_iff : compareFields d r = (false, ∅) ↔ d.MetBy r := by
  simp only [compareFields_eq_iff_changedFields, changedFields_eq_empty_iff,
    descriptionChange?_eq_none_iff, labelsChange?_eq_none_iff, fieldDiffers_eq_false_iff]
  exact ⟨fun ⟨⟨hd, hu⟩, ⟨hl, hn⟩, hf⟩ => ⟨hd, hu, hl, hn, hf⟩,
    fun h => ⟨⟨h.described, h.undescribed⟩, ⟨h.labelled, h.unlabelled⟩, h.fields⟩⟩

/-! ## Resources that are sent changes -/

/-- The texts that a map holds; no other value holds any. -/
def Value.texts : Value → Dict String
  | .map entries => Dict.ofList (entries.filterMap fun e => e.2.text?.map fun s => (e.1, s))
  | _ => ∅

@[simp] theorem Value.texts_ofTexts (labels : Dict String) : (ofTexts labels).texts = labels := by
  have hentries : ((labels.map text).entries.filterMap fun e => e.2.text?.map fun s => (e.1, s))
      = labels.entries := by
    rw [Dict.map, List.filterMap_map]
    exact List.filterMap_some
  rw [ofTexts, texts, hentries, Dict.ofList_entries]

/-- The labels that the tool owns. -/
def ownLabels (labels : Dict String) : Dict String := labels.filter fun key _ => isManagementLabel key

/-- **A resource that is sent changed fields** has them, but for labels: those take the place of the
labels of the user. -/
def Resource.sent (r : Resource) (changed : FieldMap) : Resource :=
  { r with
    fields := r.fields.union (changed.filter fun key _ => key != labelsField)
    labels := match changed.get? labelsField with
      | some v => (ownLabels r.labels).union (userLabels v.texts)
      | none => r.labels }

section Sent

variable {changed : FieldMap}

theorem Resource.get?_fields_sent {key : String} (hkey : key ≠ labelsField) :
    (r.sent changed).fields.get? key = (changed.get? key).or (r.fields.get? key) := by
  change (r.fields.union _).get? key = _
  rw [Dict.get?_union, Dict.get?_filter]
  rcases changed.get? key with _ | v <;> simp [hkey]

/-- Labels of the user are those that are sent. -/
theorem Resource.userLabels_sent (h : changed.get? labelsField = some v) :
    userLabels (r.sent changed).labels = userLabels v.texts := by
  unfold sent
  rw [h]
  refine Dict.ext_get? fun key => ?_
  unfold userLabels ownLabels
  simp only [Dict.get?_filter, Dict.get?_union]
  cases isManagementLabel key <;> cases v.texts.get? key <;> cases r.labels.get? key <;> rfl

/-- Labels that the tool owns stay as they are. -/
theorem Resource.ownLabels_sent (r : Resource) (changed : FieldMap) :
    ownLabels (r.sent changed).labels = ownLabels r.labels := by
  unfold sent
  rcases changed.get? labelsField with _ | v
  · rfl
  refine Dict.ext_get? fun key => ?_
  unfold userLabels ownLabels
  simp only [Dict.get?_filter, Dict.get?_union]
  cases isManagementLabel key <;> cases v.texts.get? key <;> cases r.labels.get? key <;> rfl

/-- The labels that are sent are declared ones, so those of the user do not differ any more. -/
theorem labelsChange?_sent (hlabels : d.fields.get? labelsField = none) :
    labelsChange? d (r.sent (changedFields d r)) = none := by
  have hsent : (changedFields d r).get? labelsField = labelsChange? d r := by
    rw [get?_changedFields, hlabels, attributeChange?_labelsField]
    rfl
  rcases hchange : labelsChange? d r with _ | v
  · have hsame : (r.sent (changedFields d r)).labels = r.labels := by
      unfold Resource.sent
      rw [hsent, hchange]
    unfold labelsChange? at hchange ⊢
    rwa [hsame]
  · have huser := Resource.userLabels_sent (r := r) (hsent.trans hchange)
    have hwanted := toField_of_labelsChange? hchange
    refine labelsChange?_eq_none_iff.mpr ⟨fun labels hgiven => ?_, fun hcleared => ?_⟩
    · rw [hgiven] at hwanted
      rw [huser, ← Option.some.inj hwanted, Value.texts_ofTexts]
    · rw [hcleared] at hwanted
      rw [huser, ← Option.some.inj hwanted]
      rfl

/-- The description that is sent is the declared one. -/
theorem descriptionChange?_sent
    (hdescription : d.description ≠ .absent → d.fields.get? descriptionField = none) :
    descriptionChange? d (r.sent (changedFields d r)) = none := by
  by_cases hgiven : d.description = .absent
  · unfold descriptionChange?
    rw [hgiven]
    rfl
  have hsent : (r.sent (changedFields d r)).fields.get? descriptionField
      = (descriptionChange? d r).or (r.fields.get? descriptionField) := by
    rw [Resource.get?_fields_sent (by decide), get?_changedFields, hdescription hgiven,
      attributeChange?_descriptionField]
    rfl
  rcases hchange : descriptionChange? d r with _ | v <;> rw [hchange] at hsent
  · unfold descriptionChange? at hchange ⊢
    rwa [hsent]
  · have hwanted := toField_of_descriptionChange? hchange
    refine descriptionChange?_eq_none_iff.mpr ⟨fun s hs => ?_, fun hcleared w hw => ?_⟩
    · rw [hs] at hwanted
      exact hsent.trans hwanted.symm
    · rw [hcleared] at hwanted
      exact Option.some.inj (hw.symm.trans (hsent.trans hwanted.symm))

/-- A declared field that differed has been sent. -/
theorem fieldDiffers_sent (hlabels : d.fields.get? labelsField = none)
    (hdescription : d.description ≠ .absent → d.fields.get? descriptionField = none)
    {field : String} (hv : d.fields.get? field = some v) :
    fieldDiffers (r.sent (changedFields d r)) field v = false := by
  have hfield : field ≠ labelsField := by
    rintro rfl
    exact absurd (hlabels.symm.trans hv) (by simp)
  have hattribute : attributeChange? d r field = none := by
    unfold attributeChange?
    rw [if_neg hfield]
    split
    · next hkey =>
      subst hkey
      -- a field for the description is declared only where there is none besides
      have habsent : d.description = .absent := by
        by_contra hgiven
        exact absurd ((hdescription hgiven).symm.trans hv) (by simp)
      unfold descriptionChange?
      rw [habsent]
      rfl
    · rfl
  have hsent : (r.sent (changedFields d r)).fields.get? field
      = if fieldDiffers r field v then some v else r.fields.get? field := by
    rw [Resource.get?_fields_sent hfield, get?_changedFields, hv, hattribute]
    rcases hdiffers : fieldDiffers r field v <;> simp [Option.filter, hdiffers]
  unfold fieldDiffers at hsent ⊢
  rw [hsent]
  split
  · simp [bne]
  · next hsame => exact eq_false_of_ne_true hsame

end Sent

/-- **Updates converge**: a resource that has been sent what differs meets the declaration, and the
comparison finds nothing more. -/
theorem compareFields_sent (hlabels : d.fields.get? labelsField = none)
    (hdescription : d.description ≠ .absent → d.fields.get? descriptionField = none) :
    d.MetBy (r.sent (compareFields d r).2)
      ∧ compareFields d (r.sent (compareFields d r).2) = (false, ∅) := by
  have hnothing : compareFields d (r.sent (compareFields d r).2) = (false, ∅) := by
    rw [compareFields_eq_iff_changedFields, changedFields_eq_empty_iff]
    exact ⟨descriptionChange?_sent hdescription, labelsChange?_sent hlabels,
      fun _ _ hv => fieldDiffers_sent hlabels hdescription hv⟩
  exact ⟨compareFields_eq_iff.mp hnothing, hnothing⟩

/-- An api without a description, with another label and another version than before, which points at
a portal. -/
def revisedApi : Declaration where
  kind := "api"
  ref := "orders"
  name := "Orders"
  description := .null
  labels := .value (Dict.ofList [("DECLPLAN-managed", "no"), ("team", "core")])
  fields := Dict.ofList [("portal_id", .text "dev"), ("version", .text "2.0")]

/-- The api as it is. -/
def outdatedApi : Resource where
  id := "a1"
  kind := "api"
  name := "Orders"
  labels := Dict.ofList [("DECLPLAN-managed", "true"), ("team", "sales")]
  fields := Dict.ofList [("description", .text "All orders"), ("version", .text "1.0")]

theorem compareFields_sent_outdatedApi : revisedApi.fields.get? labelsField = none
    ∧ revisedApi.fields.get? descriptionField = none
    ∧ (compareFields revisedApi outdatedApi).2.keys = ["description", "labels", "version"]
    ∧ revisedApi.MetBy (outdatedApi.sent (compareFields revisedApi outdatedApi).2)
    ∧ compareFields revisedApi (outdatedApi.sent (compareFields revisedApi outdatedApi).2)
      = (false, ∅) := by
  have hlabels : revisedApi.fields.get? labelsField = none := rfl
  have hdescription : revisedApi.fields.get? descriptionField = none := rfl
  exact ⟨hlabels, hdescription, by decide, compareFields_sent hlabels fun _ => hdescription⟩

end Reconcile
