import Reconcile.Proofs.Documents.Drafts
import Reconcile.Proofs.Documents.Rereading

/-!
# Proofs/Documents/States — desired states and snapshots come back

A written declaration leaves out what is not declared, writes `null` for what is cleared, and is
read as it was (`Declaration.decode?_toJson_eq_reread`), up to field values that do not come back.
Main fact: `comesBack_iff_legible` — a desired state, or a snapshot, comes back from its tree and
from every text that holds the tree if and only if all its field values are legible, so that
documents that differ are written differently.
-/

namespace Reconcile

/-! ## Parts of records -/

/-- The tree of a field that may be cleared: none if nothing is declared. -/
def Nullable.tree? {α : Type} (write : α → Json) : Nullable α → Option Json
  | .absent => none
  | .null => some .null
  | .value a => some (write a)

theorem Nullable.field_eq {α : Type} (name : String) (write : α → Json) (x : Nullable α) :
    x.field name write = Json.fieldOf? name (x.tree? write) := by
  cases x <;> rfl

@[simp] theorem Json.isPart_nullableField {α : Type} (name : String) (write : α → Json)
    (x : Nullable α) : Json.IsPart name (x.field name write) := by
  rw [Nullable.field_eq]
  exact Json.isPart_fieldOf? ..

@[simp] theorem Json.lookup_nullableField {α : Type} (key name : String) (write : α → Json)
    (x : Nullable α) :
    (x.field name write).lookup key = if key == name then x.tree? write else none := by
  rw [Nullable.field_eq, Json.lookup_fieldOf?]

/-- A field that may be cleared comes back absent, cleared or given, as it was, unless a value is
written as nothing. -/
theorem Record.nullable_eq {r : Record Json} {name : String} {α : Type} {decode : Json → Option α}
    (write : α → Json) {x : Nullable α} (h : r.fields.lookup name = x.tree? write)
    (hread : ∀ a, decode (write a) = some a) (hthere : ∀ a, Source.isNothing (write a) = false) :
    r.nullable name decode = some x := by
  rw [nullable, h]
  cases x with
  | absent => rfl
  | null => rfl
  | value a => simp [Nullable.tree?, hread a, hthere a]

theorem StringSet.ofList_members (s : StringSet) : ofList s.members = s :=
  ext_members (eq_of_ascending (ascending_sortedSet _) s.ascending fun _ => mem_sortedSet)

theorem Json.textDict?_ofTextDict (d : Dict String) :
    Source.textDict? (Json.ofTextDict d) = some d :=
  Json.dict?_object fun _ _ => rfl

/-! ## Field values -/

namespace FieldMap

/-- The maps in every field value list their keys in ascending order. -/
def Ordered (fields : FieldMap) : Prop := ∀ e ∈ fields.entries, e.2.Ordered

/-- Every field value is legible. -/
def Legible (fields : FieldMap) : Prop := ∀ e ∈ fields.entries, e.2.Legible

instance (fields : FieldMap) : Decidable fields.Ordered :=
  inferInstanceAs (Decidable (∀ e ∈ fields.entries, e.2.Ordered))

instance (fields : FieldMap) : Decidable fields.Legible :=
  inferInstanceAs (Decidable (∀ e ∈ fields.entries, e.2.Legible))

/-- Fields as they come back: each value is the one that its tree holds. -/
def reread (fields : FieldMap) : FieldMap := fields.map fun v => .ofJson v.toJson

/-- **Fields come back if and only if their values are legible.** -/
theorem reread_eq_iff {fields : FieldMap} (hordered : fields.Ordered) :
    fields.reread = fields ↔ fields.Legible := by
  refine Dict.map_eq_self_iff.trans (forall₂_congr fun e he => ⟨fun hback => ?_, fun h => ?_⟩)
  · refine Value.legible_of_same (hordered e he) ?_
    rw [hback]
    exact Value.same_self e.2
  · exact Value.ofJson_toJson_of_legible (hordered e he) h

end FieldMap

/-! ## Declarations -/

theorem ParentRef.decode?_toJson (p : ParentRef) : ParentRef.decode? p.toJson = some p := by
  have hr : Record.of? ["type", "ref"] p.toJson = some ⟨_⟩ :=
    Record.of?_object (List.Sublist.refl _) (by decide)
  simp [ParentRef.decode?, hr, Record.required, List.lookup_cons, Json.text?_string]

/-- A declaration as it comes back. -/
def Declaration.reread (d : Declaration) : Declaration := { d with fields := d.fields.reread }

/-- **A declaration is read as it is written**, up to its field values. -/
theorem Declaration.decode?_toJson_eq_reread (d : Declaration) :
    Declaration.decode? d.toJson = some d.reread := by
  obtain ⟨r, hr, hlookup⟩ : ∃ r : Record Json, Record.of? ["type", "ref", "name", "id", "namespace",
      "protected", "description", "labels", "parent", "fields"] d.toJson = some r ∧ _ :=
    Record.of?_ofParts (by simp) (by decide)
  have hkind : r.required "type" Source.text? = some d.kind :=
    Record.required_eq (.string d.kind) (by simp [hlookup, List.lookup_append])
  have href : r.required "ref" Source.text? = some d.ref :=
    Record.required_eq (.string d.ref) (by simp [hlookup, List.lookup_append])
  have hname : r.required "name" Source.text? = some d.name :=
    Record.required_eq (.string d.name) (by simp [hlookup, List.lookup_append])
  have hid : r.optional "id" Source.text? = some d.id :=
    Record.optional_eq Json.string (by simp [hlookup, List.lookup_append])
      (fun _ => rfl) fun _ => rfl
  have hscope : r.optional "namespace" Source.text? = some d.scope :=
    Record.optional_eq Json.string (by simp [hlookup, List.lookup_append])
      (fun _ => rfl) fun _ => rfl
  have hprotect : r.optional "protected" Source.bool? = some d.protect :=
    Record.optional_eq Json.bool (by simp [hlookup, List.lookup_append])
      (fun _ => rfl) fun _ => rfl
  have hdescription : r.nullable "description" Source.text? = some d.description :=
    Record.nullable_eq Json.string (by simp [hlookup, List.lookup_append])
      (fun _ => rfl) fun _ => rfl
  have hlabels : r.nullable "labels" Source.textDict? = some d.labels :=
    Record.nullable_eq Json.ofTextDict (by simp [hlookup, List.lookup_append])
      Json.textDict?_ofTextDict fun _ => rfl
  have hparent : r.optional "parent" ParentRef.decode? = some d.parent :=
    Record.optional_eq ParentRef.toJson (by simp [hlookup, List.lookup_append])
      ParentRef.decode?_toJson fun _ => rfl
  have hfields : r.orElse "fields" FieldMap.decode? ∅ = some d.fields.reread :=
    Record.orElse_dict_map Value.toJson
      (by simp [hlookup, List.lookup_append, FieldMap.toJson_eq]) fun _ _ => rfl
  rw [Declaration.decode?, bind_of_eq_some hr, bind_of_eq_some hkind, bind_of_eq_some href,
    bind_of_eq_some hname, bind_of_eq_some hid, bind_of_eq_some hscope, bind_of_eq_some hprotect,
    bind_of_eq_some hdescription, bind_of_eq_some hlabels, bind_of_eq_some hparent,
    bind_of_eq_some hfields]
  rfl

theorem Declaration.reread_eq_iff {d : Declaration} (hordered : d.fields.Ordered) :
    d.reread = d ↔ d.fields.Legible := by
  rw [← FieldMap.reread_eq_iff hordered]
  exact ⟨fun h => congrArg Declaration.fields h, fun h => by rw [Declaration.reread, h]⟩

/-! ## Desired states -/

theorem Defaults.decode?_toJson (d : Defaults) : Defaults.decode? d.toJson = some d := by
  obtain ⟨r, hr, hlookup⟩ : ∃ r : Record Json,
      Record.of? ["namespace", "namespaces", "generator"] d.toJson = some r ∧ _ :=
    Record.of?_ofParts (by simp) (by decide)
  have hscope : r.optional "namespace" Source.text? = some d.scope :=
    Record.optional_eq Json.string (by simp [hlookup, List.lookup_append])
      (fun _ => rfl) fun _ => rfl
  have hscopes : r.orElse "namespaces" Source.texts? [] = some d.scopes :=
    Record.orElse_texts (by simp [hlookup, List.lookup_append])
  have hgenerator : r.optional "generator" Source.text? = some d.generator :=
    Record.optional_eq Json.string (by simp [hlookup, List.lookup_append])
      (fun _ => rfl) fun _ => rfl
  simp [Defaults.decode?, hr, hscope, hscopes, hgenerator]

namespace DesiredState

/-- The maps in all field values of a desired state list their keys in ascending order. -/
def FieldsOrdered (s : DesiredState) : Prop := ∀ d ∈ s.resources, d.fields.Ordered

/-- All field values of a desired state are legible. -/
def FieldsLegible (s : DesiredState) : Prop := ∀ d ∈ s.resources, d.fields.Legible

instance (s : DesiredState) : Decidable s.FieldsOrdered :=
  inferInstanceAs (Decidable (∀ d ∈ s.resources, d.fields.Ordered))

instance (s : DesiredState) : Decidable s.FieldsLegible :=
  inferInstanceAs (Decidable (∀ d ∈ s.resources, d.fields.Legible))

theorem decode?_toJson_eq_reread (s : DesiredState) : DesiredState.decode? s.toJson
    = some { s with resources := s.resources.map Declaration.reread } := by
  have hr : Record.of? ["defaults", "resources"] s.toJson = some ⟨_⟩ :=
    Record.of?_object (List.Sublist.refl _) (by decide)
  have hresources : Source.list? Declaration.decode?
      (Json.array (s.resources.map Declaration.toJson))
      = some (s.resources.map Declaration.reread) :=
    Json.list?_array_map fun d _ => d.decode?_toJson_eq_reread
  simp [DesiredState.decode?, hr, Record.orElse, List.lookup_cons, Defaults.decode?_toJson,
    hresources]

/-- **A desired state is what its tree holds if and only if its field values are legible.** -/
theorem decode?_toJson_iff {s : DesiredState} (hordered : s.FieldsOrdered) :
    DesiredState.decode? s.toJson = some s ↔ s.FieldsLegible := by
  have hresources : { s with resources := s.resources.map Declaration.reread } = s
      ↔ s.resources.map Declaration.reread = s.resources.map id :=
    ⟨fun h => (congrArg DesiredState.resources h).trans (List.map_id _).symm,
      fun h => by rw [h, List.map_id]⟩
  rw [decode?_toJson_eq_reread, Option.some_inj, hresources, List.map_inj_left]
  exact forall₂_congr fun d hd => Declaration.reread_eq_iff (hordered d hd)

end DesiredState

/-! ## Snapshots -/

/-- A resource as it comes back. -/
def Resource.reread (r : Resource) : Resource := { r with fields := r.fields.reread }

/-- **A resource is read as it is written**, up to its field values. -/
theorem Resource.decode?_toJson_eq_reread (x : Resource) :
    Resource.decode? x.toJson = some x.reread := by
  obtain ⟨r, hr, hlookup⟩ : ∃ r : Record Json,
      Record.of? ["id", "type", "name", "labels", "fields"] x.toJson = some r ∧ _ :=
    Record.of?_ofParts (by simp) (by decide)
  have hid : r.required "id" Source.text? = some x.id :=
    Record.required_eq (.string x.id) (by simp [hlookup, List.lookup_append])
  have hkind : r.required "type" Source.text? = some x.kind :=
    Record.required_eq (.string x.kind) (by simp [hlookup, List.lookup_append])
  have hname : r.required "name" Source.text? = some x.name :=
    Record.required_eq (.string x.name) (by simp [hlookup, List.lookup_append])
  have hlabels : r.orElse "labels" Source.textDict? ∅ = some x.labels :=
    Record.orElse_textDict (by simp [hlookup, List.lookup_append])
  have hfields : r.orElse "fields" FieldMap.decode? ∅ = some x.fields.reread :=
    Record.orElse_dict_map Value.toJson
      (by simp [hlookup, List.lookup_append, FieldMap.toJson_eq]) fun _ _ => rfl
  simp [Resource.decode?, hr, hid, hkind, hname, hlabels, hfields, Resource.reread]

theorem Resource.reread_eq_iff {x : Resource} (hordered : x.fields.Ordered) :
    x.reread = x ↔ x.fields.Legible := by
  rw [← FieldMap.reread_eq_iff hordered]
  exact ⟨fun h => congrArg Resource.fields h, fun h => by rw [Resource.reread, h]⟩

namespace Snapshot

/-- The maps in all field values of a snapshot list their keys in ascending order. -/
def FieldsOrdered (s : Snapshot) : Prop := ∀ x ∈ s.resources, x.fields.Ordered

/-- All field values of a snapshot are legible. -/
def FieldsLegible (s : Snapshot) : Prop := ∀ x ∈ s.resources, x.fields.Legible

instance (s : Snapshot) : Decidable s.FieldsOrdered :=
  inferInstanceAs (Decidable (∀ x ∈ s.resources, x.fields.Ordered))

instance (s : Snapshot) : Decidable s.FieldsLegible :=
  inferInstanceAs (Decidable (∀ x ∈ s.resources, x.fields.Legible))

theorem decode?_toJson_eq_reread (s : Snapshot) : Snapshot.decode? s.toJson
    = some { s with resources := s.resources.map Resource.reread } := by
  obtain ⟨r, hr, hlookup⟩ : ∃ r : Record Json,
      Record.of? ["configured_types", "resources"] s.toJson = some r ∧ _ :=
    Record.of?_ofParts (by simp) (by decide)
  have hconfigured : r.optional "configured_types"
      (fun v => (Source.texts? v).map StringSet.ofList) = some s.configured :=
    Record.optional_eq (fun kinds => Json.strings kinds.members)
      (by simp [hlookup, List.lookup_append])
      (fun kinds => by rw [Json.texts?_strings, Option.map_some, StringSet.ofList_members])
      fun _ => rfl
  have hresources : r.orElse "resources" (Source.list? Resource.decode?) []
      = some (s.resources.map Resource.reread) :=
    Record.orElse_of_there (by simp [hlookup, List.lookup_append])
      (Json.list?_array_map fun x _ => x.decode?_toJson_eq_reread)
  simp [Snapshot.decode?, hr, hconfigured, hresources]

/-- **A snapshot is what its tree holds if and only if its field values are legible.** -/
theorem decode?_toJson_iff {s : Snapshot} (hordered : s.FieldsOrdered) :
    Snapshot.decode? s.toJson = some s ↔ s.FieldsLegible := by
  have hresources : { s with resources := s.resources.map Resource.reread } = s
      ↔ s.resources.map Resource.reread = s.resources.map id :=
    ⟨fun h => (congrArg Snapshot.resources h).trans (List.map_id _).symm,
      fun h => by rw [h, List.map_id]⟩
  rw [decode?_toJson_eq_reread, Option.some_inj, hresources, List.map_inj_left]
  exact forall₂_congr fun x hx => Resource.reread_eq_iff (hordered x hx)

end Snapshot

/-! ## Coming back -/

/-- **A record comes back**: the tree that it is written as is decoded as it, and so is every text
that holds this tree. -/
def ComesBack {α : Type} (write : α → Json) (decode : ∀ {δ : Type} [Source δ], δ → Option α)
    (a : α) : Prop :=
  decode (write a) = some a
    ∧ ∀ text, Json.read? text = some (write a) → Json.decodeText? decode text = some a

/-- It is enough that the tree is decoded as the record. -/
theorem comesBack_iff {α : Type} {write : α → Json} {decode : ∀ {δ : Type} [Source δ], δ → Option α}
    (halike : Source.Alike Json.Draft.Means decode decode) {a : α} :
    ComesBack write decode a ↔ decode (write a) = some a :=
  ⟨fun h => h.1, fun h => ⟨h, fun _ htext => (Json.decodeText?_eq halike htext).trans h⟩⟩

/-- Records that come back are told apart by what is written. -/
theorem ComesBack.eq_of_write_eq {α : Type} {write : α → Json}
    {decode : ∀ {δ : Type} [Source δ], δ → Option α} {a b : α} (ha : ComesBack write decode a)
    (hb : ComesBack write decode b) (h : write a = write b) : a = b :=
  Option.some.inj (ha.1.symm.trans (h ▸ hb.1))

/-- **Desired states and snapshots come back if and only if their field values are legible**, and
those that do are written differently when they differ in anything. -/
theorem comesBack_iff_legible :
    (∀ s : DesiredState, s.FieldsOrdered →
      (ComesBack DesiredState.toJson DesiredState.decode? s ↔ s.FieldsLegible))
    ∧ (∀ s t : DesiredState, s.FieldsOrdered ∧ s.FieldsLegible → t.FieldsOrdered ∧ t.FieldsLegible →
      s.toJson = t.toJson → s = t)
    ∧ (∀ s : Snapshot, s.FieldsOrdered →
      (ComesBack Snapshot.toJson Snapshot.decode? s ↔ s.FieldsLegible))
    ∧ ∀ s t : Snapshot, s.FieldsOrdered ∧ s.FieldsLegible → t.FieldsOrdered ∧ t.FieldsLegible →
      s.toJson = t.toJson → s = t := by
  have hstate : ∀ s : DesiredState, s.FieldsOrdered →
      (ComesBack DesiredState.toJson DesiredState.decode? s ↔ s.FieldsLegible) := fun s hs =>
    (comesBack_iff Json.Draft.agrees_means.desiredState).trans (DesiredState.decode?_toJson_iff hs)
  have hsnapshot : ∀ s : Snapshot, s.FieldsOrdered →
      (ComesBack Snapshot.toJson Snapshot.decode? s ↔ s.FieldsLegible) := fun s hs =>
    (comesBack_iff Json.Draft.agrees_means.snapshot).trans (Snapshot.decode?_toJson_iff hs)
  refine ⟨hstate, fun s t hs ht => ?_, hsnapshot, fun s t hs ht => ?_⟩
  · exact ((hstate s hs.1).mpr hs.2).eq_of_write_eq ((hstate t ht.1).mpr ht.2)
  · exact ((hsnapshot s hs.1).mpr hs.2).eq_of_write_eq ((hsnapshot t ht.1).mpr ht.2)

/-- Attributes that are absent, cleared, given and given as empty, a reference to a field with a `#`
in its name, and texts that are nearly references. -/
def mixedCatalog : DesiredState where
  defaults := { scopes := ["team-a"] }
  resources := [
    { kind := "api", ref := "orders", name := "Orders", protect := some false, description := .null,
      labels := .value ∅, fields := Dict.ofList [
        ("origin", .reference ⟨"portal", "title#short"⟩),
        ("steps", .list [.text "__REF__:#id", .null, .map [("next", .text "__REF__:orders#")]])] },
    { kind := "portal", ref := "dev", name := "", id := some "", description := .value "",
      labels := .null, parent := some ⟨"api", "orders"⟩ }]

/-- A snapshot that covers no kind. -/
def uncoveringSnapshot : Snapshot where
  configured := some (.ofList [])
  resources := [
    { id := "a1", kind := "api", name := "Orders",
      fields := Dict.singleton "origin" (.reference ⟨"portal", "id"⟩) }]

/-- The same for a snapshot that covers every kind. -/
def openSnapshot : Snapshot where
  resources := uncoveringSnapshot.resources

theorem comesBack_mixedCatalog : mixedCatalog.FieldsOrdered ∧ mixedCatalog.FieldsLegible
    ∧ ComesBack DesiredState.toJson DesiredState.decode? mixedCatalog
    ∧ uncoveringSnapshot.FieldsOrdered ∧ uncoveringSnapshot.FieldsLegible
    ∧ ComesBack Snapshot.toJson Snapshot.decode? uncoveringSnapshot
    ∧ openSnapshot.toJson ≠ uncoveringSnapshot.toJson := by
  have hordered : mixedCatalog.FieldsOrdered := by decide
  have hlegible : mixedCatalog.FieldsLegible := by decide
  have hfields : uncoveringSnapshot.FieldsOrdered ∧ uncoveringSnapshot.FieldsLegible := by decide
  refine ⟨hordered, hlegible, (comesBack_iff_legible.1 _ hordered).mpr hlegible, hfields.1,
    hfields.2, (comesBack_iff_legible.2.2.1 _ hfields.1).mpr hfields.2, fun hsame => ?_⟩
  have heq := comesBack_iff_legible.2.2.2 openSnapshot uncoveringSnapshot hfields hfields hsame
  exact absurd (congrArg Snapshot.configured heq) nofun

end Reconcile
