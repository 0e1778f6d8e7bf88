import Reconcile.Proofs.Accepted
import Reconcile.Proofs.Documents.RoundTrip
import Reconcile.Proofs.Pass.WellLinked

/-!
# Proofs/Pass/Survival — which plans survive being written

The fields of a planned change come from the fields of a declaration, from its name, its description
or its labels (`Declaration.Yields`).  A document leaves no field that does not come back, and
validation refuses those that do not; names, descriptions and labels are not looked at.  Main fact:
`loadsAs_of_generatePlan` — a plan for a document is loaded as it was written if and only if none of
its changes carries a text that reads as a reference as one of these.
-/

namespace Reconcile

/-! ## Where the fields of a change come from -/

/-- **What a declaration puts into the changes for it**: its fields, its name, its description and
its labels, the latter with those of the tool. -/
inductive Declaration.Yields (d : Declaration) (scope : String) : String × Value → Prop
  | field {e : String × Value} (h : e ∈ d.fields.entries) : Yields d scope e
  | cleared {key : String} : Yields d scope (key, .null)
  | name : Yields d scope (nameField, .text d.name)
  | description {s : String} (h : d.description = .value s) :
      Yields d scope (descriptionField, .text s)
  | labels {labels : Dict String}
      (h : ∀ e ∈ labels.entries, (∃ given, d.labels = .value given ∧ e ∈ given.entries)
        ∨ e ∈ (managementLabels scope d.isProtected).entries) :
      Yields d scope (labelsField, .ofTexts labels)

namespace Declaration

variable {d : Declaration} {scope kind : String} {e : String × Value}

/-- The standard accessors read what a declaration yields, where it has no identifier. -/
theorem yields_of_mem_readAll (hid : d.id = none)
    (h : e ∈ (standardAccessors.readAll kind d).entries) : d.Yields scope e := by
  obtain ⟨key, v⟩ := e
  have hread := Dict.mem_entries_iff.mp h
  rw [Accessors.get?_readAll, read?_standardAccessors] at hread
  split_ifs at hread with hkey hkey hkey hkey
  · subst hkey
    rcases hlabels : d.labels with _ | _ | labels <;> rw [hlabels] at hread
    · exact absurd hread (by simp [Nullable.toField])
    · obtain rfl := Option.some.inj hread
      exact .cleared
    · obtain rfl := Option.some.inj hread
      exact .labels fun x hx => .inl ⟨labels, hlabels, hx⟩
  · subst hkey
    rcases htext : d.description with _ | _ | s <;> rw [htext] at hread
    · exact absurd hread (by simp [Nullable.toField])
    · obtain rfl := Option.some.inj hread
      exact .cleared
    · obtain rfl := Option.some.inj hread
      exact .description htext
  · rw [hid] at hread
    exact absurd hread (by simp)
  · obtain rfl := Option.some.inj hread
    exact hkey ▸ .name

/-- **What a new resource is sent is what its declaration yields.** -/
theorem yields_of_mem_createFields (hid : d.id = none)
    (h : e ∈ (createFields standardAccessors kind scope d).entries) : d.Yields scope e := by
  rcases Dict.mem_of_mem_insert h with rfl | h
  · refine .labels fun x hx => ?_
    rcases Dict.mem_of_mem_union hx with huser | hown
    · rcases hlabels : d.labels with _ | _ | labels <;> rw [hlabels] at huser
      · exact absurd huser List.not_mem_nil
      · exact absurd huser List.not_mem_nil
      · exact .inl ⟨labels, rfl, (List.mem_filter.mp huser).1⟩
    · exact .inr hown
  · rcases Dict.mem_of_mem_union h with hfield | hread
    · exact .field hfield
    · exact yields_of_mem_readAll hid hread

theorem yields_of_descriptionChange? {r : Resource} {v : Value}
    (h : descriptionChange? d r = some v) : d.Yields scope (descriptionField, v) := by
  unfold descriptionChange? at h
  rcases htext : d.description with _ | _ | s <;> rw [htext] at h
  · exact absurd h (by simp [Nullable.toField])
  · obtain rfl := Option.some.inj (Option.ite_none_left_eq_some.mp h).2
    exact .cleared
  · obtain rfl := Option.some.inj (Option.ite_none_left_eq_some.mp h).2
    exact .description htext

theorem yields_of_labelsChange? {r : Resource} {v : Value} (h : labelsChange? d r = some v) :
    d.Yields scope (labelsField, v) := by
  unfold labelsChange? at h
  rcases hlabels : d.labels with _ | _ | labels <;> rw [hlabels] at h
  · exact absurd h (by simp)
  · obtain rfl := Option.some.inj (Option.ite_none_left_eq_some.mp h).2
    exact .cleared
  · obtain rfl := Option.some.inj (Option.ite_none_right_eq_some.mp h).2
    exact .labels fun x hx => .inl ⟨labels, hlabels, hx⟩

/-- **What an update sends is what its declaration yields.** -/
theorem yields_of_mem_changedFields {r : Resource} (h : e ∈ (changedFields d r).entries) :
    d.Yields scope e := by
  unfold changedFields at h
  rcases Dict.mem_of_mem_foldl_insert h with hstart | hfield
  · have hnone : ∀ {x : String × Value}, x ∉ (∅ : FieldMap).entries := List.not_mem_nil
    rcases hdescription : descriptionChange? d r with _ | v <;>
      rcases hlabels : labelsChange? d r with _ | w <;> rw [hdescription, hlabels] at hstart
    · exact absurd hstart hnone
    · rcases Dict.mem_of_mem_insert hstart with rfl | hold
      · exact yields_of_labelsChange? hlabels
      · exact absurd hold hnone
    · rcases Dict.mem_of_mem_insert hstart with rfl | hold
      · exact yields_of_descriptionChange? hdescription
      · exact absurd hold hnone
    · rcases Dict.mem_of_mem_insert hstart with rfl | hold
      · exact yields_of_labelsChange? hlabels
      · rcases Dict.mem_of_mem_insert hold with rfl | hold
        · exact yields_of_descriptionChange? hdescription
        · exact absurd hold hnone
  · exact .field (List.mem_filter.mp hfield).1

/-- The identifier that is filled in is nothing that a declaration yields. -/
theorem Yields.of_identify {state : DesiredState} {snap : Snapshot}
    (h : (state.identify snap d).Yields scope e) : d.Yields scope e := by
  unfold DesiredState.identify at h
  split at h
  · cases h with
    | field h => exact .field h
    | cleared => exact .cleared
    | name => exact .name
    | description h => exact .description h
    | labels h => exact .labels h
  · exact h

end Declaration

/-! ## Legible changes -/

/-- Nothing that a change carries as a name, as a description or among labels reads as a
reference. -/
structure Change.Legible (c : Change) : Prop where
  texts : ∀ field ∈ [nameField, descriptionField], ∀ s, c.fields.get? field = some (.text s) →
    Reference.parse? s = none
  labels : ∀ labels, c.fields.get? labelsField = some (.ofTexts labels) →
    ∀ e ∈ labels.entries, Reference.parse? e.2 = none

/-- Neither name nor description nor a label of a declaration reads as a reference. -/
structure Declaration.Legible (d : Declaration) : Prop where
  name : Reference.parse? d.name = none
  description : ∀ s, d.description = .value s → Reference.parse? s = none
  labels : ∀ labels, d.labels = .value labels → ∀ e ∈ labels.entries, Reference.parse? e.2 = none

/-- Every field of a declaration is what its own tree holds. -/
def Declaration.Restorable (d : Declaration) : Prop :=
  ∀ e ∈ d.fields.entries, Value.ofJson e.2.toJson = e.2

/-- What a reader of declarations gives is restorable. -/
theorem Declaration.restorable_of_decode? {δ : Type} [Source δ] {x : δ} {d : Declaration}
    (h : Declaration.decode? x = some d) : d.Restorable := by
  obtain ⟨r, -, h⟩ := Option.bind_eq_some_iff.mp h
  -- The fields are read behind the nine other parts.
  iterate 9 obtain ⟨_, -, h⟩ := Option.bind_eq_some_iff.mp h
  obtain ⟨fields, hfields, h⟩ := Option.bind_eq_some_iff.mp h
  obtain rfl := Option.some.inj h
  exact Record.restorable_of_orElse hfields

/-- **A document leaves no field that does not come back.** -/
theorem DesiredState.restorable_of_decode? {δ : Type} [Source δ] {x : δ} {state : DesiredState}
    (h : DesiredState.decode? x = some state) : ∀ d ∈ state.resources, d.Restorable := by
  obtain ⟨r, -, h⟩ := Option.bind_eq_some_iff.mp h
  obtain ⟨_, -, h⟩ := Option.bind_eq_some_iff.mp h
  obtain ⟨resources, hresources, h⟩ := Option.bind_eq_some_iff.mp h
  obtain rfl := Option.some.inj h
  intro d hd
  obtain ⟨y, hy⟩ := Record.exists_of_mem_of_orElse_list hresources hd
  exact Declaration.restorable_of_decode? hy

/-- A legible change that declarations yield is restorable. -/
theorem Change.Legible.restorable {c : Change} (h : c.Legible)
    (hyields : ∀ e ∈ c.fields.entries, ∃ (d : Declaration) (scope : String),
      d.Restorable ∧ d.Yields scope e) : c.Restorable := by
  intro e he
  obtain ⟨d, scope, hd, hyield⟩ := hyields e he
  cases hyield with
  | field hfield => exact hd e hfield
  | cleared => rfl
  | name =>
    have hplain := h.texts nameField (by simp) d.name (Dict.mem_entries_iff.mp he)
    exact Value.ofJson_toJson_text hplain
  | description =>
    have hplain := h.texts descriptionField (by simp) _ (Dict.mem_entries_iff.mp he)
    exact Value.ofJson_toJson_text hplain
  | labels =>
    have hplain := h.labels _ (Dict.mem_entries_iff.mp he)
    exact Value.ofJson_toJson_ofTexts_of_forall hplain

/-- A change that comes back as an equal one is legible. -/
theorem Change.legible_of_forall_beq {c : Change}
    (h : ∀ e ∈ c.fields.entries, (Value.ofJson e.2.toJson == e.2) = true) : c.Legible where
  texts _ _ _ hs := Value.parse?_eq_none_of_beq (h _ (Dict.mem_entries_iff.mpr hs))
  labels _ hlabels := Value.parse?_eq_none_of_beq_ofTexts (h _ (Dict.mem_entries_iff.mpr hlabels))

/-- No namespace reads as a reference. -/
theorem IsSpelled.parse?_eq_none {scope : String} (h : IsSpelled scope) :
    Reference.parse? scope = none := by
  have hstart : ¬Reference.marker.toList <+: scope.toList := by
    intro hmarked
    exact absurd (h '_' (hmarked.subset (by decide))) (by decide)
  have hdrop : dropStart? Reference.marker.toList scope.toList = none :=
    if_neg fun hmarked => hstart (List.isPrefixOf_iff_prefix.mp hmarked)
  rw [Reference.parse?, hdrop, Option.bind_none]

/-- The labels of the tool do not read as references. -/
theorem parse?_eq_none_of_mem_managementLabels {scope : String} {isProtected : Bool}
    (hscope : IsSpelled scope) {e : String × String}
    (h : e ∈ (managementLabels scope isProtected).entries) : Reference.parse? e.2 = none := by
  have htrue : Reference.parse? "true" = none := by decide
  have hlabels : e ∈ ((Dict.singleton managedLabel "true").insert namespaceLabel scope).entries →
      Reference.parse? e.2 = none := by
    intro he
    rcases Dict.mem_of_mem_insert he with rfl | he
    · exact hscope.parse?_eq_none
    · rcases Dict.mem_of_mem_insert he with rfl | he
      · exact htrue
      · exact absurd he List.not_mem_nil
  unfold managementLabels at h
  split at h
  · rcases Dict.mem_of_mem_insert h with rfl | he
    · exact htrue
    · exact hlabels he
  · exact hlabels h

/-- A change that legible declarations yield is legible. -/
theorem Change.legible_of_yields {c : Change}
    (hyields : ∀ e ∈ c.fields.entries, ∃ (d : Declaration) (scope : String),
      d.Restorable ∧ d.Legible ∧ IsSpelled scope ∧ d.Yields scope e) : c.Legible := by
  refine legible_of_forall_beq fun e he => ?_
  obtain ⟨d, scope, hd, hlegible, hscope, hyield⟩ := hyields e he
  have hback : Value.ofJson e.2.toJson = e.2 := by
    cases hyield with
    | field hfield => exact hd e hfield
    | cleared => rfl
    | name => exact Value.ofJson_toJson_text hlegible.name
    | description htext => exact Value.ofJson_toJson_text (hlegible.description _ htext)
    | labels hlabels =>
      refine Value.ofJson_toJson_ofTexts_of_forall fun x hx => ?_
      rcases hlabels x hx with ⟨given, hgiven, hmem⟩ | hown
      · exact hlegible.labels given hgiven x hmem
      · exact parse?_eq_none_of_mem_managementLabels hscope hown
  rw [hback]
  exact beq_self_eq_true e.2

section Plans

variable {snap : Snapshot} {accessors : Accessors Declaration} {ks : List KindPlanner}
  {state : DesiredState} {mode : Mode}

/-- A declaration that means nothing that exists has no identifier. -/
theorem id_eq_none_of_target {d : Declaration} {k : KindPlanner} {scope : String}
    (hexists : d.Exists snap) (hcovers : snap.covers d.kind = true) (hkind : d.kind = k.kind)
    (h : (sceneOf snap accessors state mode).target k scope (state.identify snap d) = none) :
    (state.identify snap d).id = none := by
  rcases hid : (state.identify snap d).id with _ | id
  · rfl
  have hnothing : snap.find? d.kind id = none := by
    have hboth := Option.or_eq_none_iff.mp h
    rw [hid] at hboth
    exact hkind ▸ hboth.2
  rw [DesiredState.id_identify hcovers] at hid
  rcases Option.or_eq_some_iff.mp hid with hdeclared | ⟨-, hnamed⟩
  · have hfound := hexists hcovers id hdeclared
    rw [hnothing] at hfound
    exact absurd hfound (by simp)
  · obtain ⟨r, hr, rfl⟩ := Option.map_eq_some_iff.mp hnamed
    obtain ⟨hmem, hrkind⟩ := Snapshot.of_named? hr
    exact absurd (List.find?_eq_none.mp hnothing r hmem) (by simp [hrkind])

/-- **The fields of what a task plans are yielded by a declaration.** -/
theorem exists_yields_of_planned {s : Sketch} {t : Task} {e : Change} {x : String × Value}
    (hexists : ∀ d ∈ state.resources, d.Exists snap)
    (hcompare : ∀ k ∈ ks, k.compare = compareFields)
    (ht : t ∈ (sceneOf snap standardAccessors state mode).tasks ks)
    (h : (sceneOf snap standardAccessors state mode).verdict s t = .planned e)
    (hx : x ∈ e.fields.entries) : ∃ d ∈ state.resources, d.Yields (state.scopeOf d) x := by
  rcases Scene.planned_cases h with ⟨k, scope, d, r, rfl, -, -, -, rfl⟩
    | ⟨k, scope, d, rfl, htarget, rfl⟩ | ⟨k, scope, r, -, -, rfl⟩
  · obtain ⟨hk, d₀, hd₀, rfl, -⟩ := exists_declaration_of_mem_tasks ht
    have hchanged : x ∈ (changedFields (state.identify snap d₀) r).entries := by
      simp only [Scene.updateChange, hcompare k hk, compareFields] at hx
      split at hx
      · exact hx
      · exact absurd hx List.not_mem_nil
    exact ⟨d₀, hd₀, (Declaration.yields_of_mem_changedFields hchanged).of_identify⟩
  · obtain ⟨-, d₀, hd₀, rfl, hkind, rfl, hcovers⟩ := exists_declaration_of_mem_tasks ht
    have hid := id_eq_none_of_target (hexists d₀ hd₀) hcovers hkind.symm htarget
    exact ⟨d₀, hd₀, (Declaration.yields_of_mem_createFields hid hx).of_identify⟩
  · exact absurd hx List.not_mem_nil

/-- The fields of a plan over a snapshot are yielded by declarations. -/
theorem exists_yields_of_generatePlan {options : PassOptions} {now : Timestamp} {plan : Plan}
    (hcompare : ∀ k ∈ ks, k.compare = compareFields)
    (hplan : (generatePlan (.ofSnapshot snap) standardAccessors (ks.map KindPlanner.toPlanner) state
      options now).1 = .ok plan) {c : Change} (hc : c ∈ plan.changes) {x : String × Value}
    (hx : x ∈ c.fields.entries) : ∃ d ∈ state.resources, d.Yields (state.scopeOf d) x := by
  obtain ⟨hexists, s, batch, order, rename, hpassed⟩ := passed_of_generatePlan hplan
  obtain ⟨t, ht, s₁, b, hplanned, hcore⟩ := hpassed.planned_of_mem hc
  have hfields : b.core.fields = c.core.fields := congrArg Change.fields hcore
  exact exists_yields_of_planned hexists hcompare ht hplanned
    (hfields.symm ▸ hx : x ∈ b.core.fields.entries)

end Plans

/-! ## Plans that come back -/

theorem beq_of_map_beq {α : Type} [BEq α] {f : α → α} {l : List α} (h : (l.map f == l) = true) :
    ∀ a ∈ l, (f a == a) = true := by
  induction l with
  | nil => simp
  | cons a rest ih =>
    rw [List.map_cons, List.cons_beq_cons, Bool.and_eq_true] at h
    exact List.forall_mem_cons.mpr ⟨h.1, ih h.2⟩

theorem Change.fields_beq_of_beq {c d : Change} (h : (c == d) = true) :
    (c.fields.entries == d.fields.entries) = true := by
  have hparts : (c == d) = (c.id == d.id && (c.kind == d.kind && (c.ref == d.ref
      && (c.resourceId == d.resourceId && (c.monikers == d.monikers && (c.action == d.action
      && (c.fields == d.fields && (c.references == d.references && (c.parent == d.parent
      && (c.protection == d.protection && (c.scope == d.scope
      && c.dependsOn == d.dependsOn))))))))))) := rfl
  rw [hparts] at h
  simp only [Bool.and_eq_true] at h
  exact h.2.2.2.2.2.2.1

theorem Plan.changes_beq_of_beq {p q : Plan} (h : (p == q) = true) :
    (p.changes == q.changes) = true := by
  have hparts : (p == q) = (p.metadata == q.metadata && (p.changes == q.changes
      && (p.order == q.order && (p.summary == q.summary && p.warnings == q.warnings)))) := rfl
  rw [hparts] at h
  simp only [Bool.and_eq_true] at h
  exact h.2.1

/-- A plan that comes back as an equal one has legible changes. -/
theorem Plan.legible_of_reread_beq {p : Plan} (h : (p.reread == p) = true) :
    ∀ c ∈ p.changes, c.Legible := by
  intro c hc
  have hchange : (c.reread == c) = true := beq_of_map_beq (changes_beq_of_beq h) c hc
  refine Change.legible_of_forall_beq fun e he => ?_
  have hentry := beq_of_map_beq (f := fun x => (x.1, Value.ofJson x.2.toJson))
    (Change.fields_beq_of_beq hchange) e he
  exact (Bool.and_eq_true _ _ ▸ hentry : _ ∧ _).2

/-- **What a plan for a desired state is loaded as** from its own document: an equal plan if and only
if its changes are legible, and then the same plan with the same digest.  That is so where the
declarations are legible. -/
structure Plan.LoadsAs (plan loaded : Plan) (state : DesiredState) : Prop where
  loads : Plan.decode? plan.toJson = some loaded
  equal_iff : (loaded == plan) = true ↔ ∀ c ∈ plan.changes, c.Legible
  same : (loaded == plan) = true → loaded = plan ∧ loaded.digest = plan.digest
  declared : (∀ d ∈ state.resources, d.Legible) → (loaded == plan) = true

/-- **Which plans survive being written.**  A plan for an accepted document over a snapshot can be
loaded, and is equal to what was written if and only if no name, description or label in it reads
as a reference. -/
theorem loadsAs_of_generatePlan {δ : Type} [Source δ] {document : δ} {state : DesiredState}
    {snap : Snapshot} {ks : List KindPlanner} {options : PassOptions} {now : Timestamp}
    {plan : Plan} (hdocument : DesiredState.decode? document = some state)
    (haccepted : state.Accepted) (hcompare : ∀ k ∈ ks, k.compare = compareFields)
    (hplan : (generatePlan (.ofSnapshot snap) standardAccessors (ks.map KindPlanner.toPlanner) state
      options now).1 = .ok plan)
    (hinstant : Timestamp.parse? plan.metadata.generatedAt.text
      = some plan.metadata.generatedAt) : ∃ loaded, plan.LoadsAs loaded state := by
  have hrestorable := DesiredState.restorable_of_decode? hdocument
  have hsame : (∀ c ∈ plan.changes, c.Legible) → plan.reread = plan := by
    intro hlegible
    refine Plan.reread_eq_of_forall fun c hc => (hlegible c hc).restorable fun e he => ?_
    obtain ⟨d, hd, hyield⟩ := exists_yields_of_generatePlan hcompare hplan hc he
    exact ⟨d, _, hrestorable d hd, hyield⟩
  have hdeclared : (∀ d ∈ state.resources, d.Legible) → ∀ c ∈ plan.changes, c.Legible := by
    intro hlegible c hc
    refine Change.legible_of_yields fun e he => ?_
    obtain ⟨d, hd, hyield⟩ := exists_yields_of_generatePlan hcompare hplan hc he
    exact ⟨d, _, hrestorable d hd, hlegible d hd, haccepted.isSpelled_scopeOf hd, hyield⟩
  have hequal : (∀ c ∈ plan.changes, c.Legible) → (plan.reread == plan) = true := by
    intro hlegible
    rw [hsame hlegible]
    exact beq_self_eq_true plan
  refine ⟨plan.reread, Plan.decode?_toJson_eq_reread hinstant,
    ⟨Plan.legible_of_reread_beq, hequal⟩, fun h => ?_, fun h => hequal (hdeclared h)⟩
  have heq := hsame (Plan.legible_of_reread_beq h)
  exact ⟨heq, congrArg Plan.digest heq⟩

/-- A document with an api that points at a portal, and that says something of itself. -/
def describedDocument : Json := .object [("resources", .array [
  .object [("type", .string "portal"), ("ref", .string "docs"), ("name", .string "Docs")],
  .object [("type", .string "api"), ("ref", .string "orders"), ("name", .string "Orders"),
    ("description", .string "see __REF__:docs"), ("labels", .object [("team", .string "shop")]),
    ("fields", .object [("portal_id", .string "__REF__:docs"), ("tier", .null)])]])]

/-- What it declares. -/
def described : DesiredState where
  resources := [
    { kind := "portal", ref := "docs", name := "Docs" },
    { kind := "api", ref := "orders", name := "Orders", description := .value "see __REF__:docs",
      labels := .value (.singleton "team" "shop"),
      fields := .ofList [("portal_id", .reference ⟨"docs", "id"⟩), ("tier", .null)] }]

theorem loadsAs_described : DesiredState.decode? describedDocument = some described
    ∧ described.Accepted ∧ ∃ plan loaded,
      (generatePlan (.ofSnapshot {}) standardAccessors
        ([{ kind := "api" }, { kind := "portal" }].map KindPlanner.toPlanner) described {}
        ⟨0, 0⟩).1 = .ok plan
      ∧ Timestamp.parse? plan.metadata.generatedAt.text = some plan.metadata.generatedAt
      ∧ plan.order = ["1:c:portal:docs", "2:c:api:orders"] ∧ plan.LoadsAs loaded described := by
  have hdocument : DesiredState.decode? describedDocument = some described := rfl
  have haccepted : described.Accepted := by
    unfold DesiredState.Accepted
    decide +kernel
  obtain ⟨plan, hplan, hread⟩ := exists_ok_of_toOption
    (f := fun p : Plan => (p.order, p.metadata.generatedAt))
    (x := (generatePlan (.ofSnapshot {}) standardAccessors
      ([{ kind := "api" }, { kind := "portal" }].map KindPlanner.toPlanner) described {} ⟨0, 0⟩).1)
    (b := (["1:c:portal:docs", "2:c:api:orders"], ⟨0, 0⟩)) (by decide +kernel)
  obtain ⟨horder, hmoment⟩ := Prod.mk.inj hread
  have hinstant : Timestamp.parse? plan.metadata.generatedAt.text
      = some plan.metadata.generatedAt := by
    rw [hmoment]
    decide +kernel
  obtain ⟨loaded, hloaded⟩ :=
    loadsAs_of_generatePlan hdocument haccepted (by simp) hplan hinstant
  exact ⟨hdocument, haccepted, plan, loaded, hplan, hinstant, horder, hloaded⟩

/-- A document that names an api after a marked text. -/
def markedDocument : Json := .object [("resources", .array [.object [
  ("type", .string "api"), ("ref", .string "billing"), ("name", .string "__REF__:checkout")]])]

/-- What it declares. -/
def marked : DesiredState where
  resources := [{ kind := "api", ref := "billing", name := "__REF__:checkout" }]

/-- **Validation does not look at names**: a plan for an accepted document is loaded as another
plan. -/
theorem exists_loaded_ne_of_accepted : DesiredState.decode? markedDocument = some marked
    ∧ marked.Accepted ∧ ∃ plan loaded,
      (generatePlan (.ofSnapshot {}) standardAccessors ([{ kind := "api" }].map
        KindPlanner.toPlanner) marked {} ⟨0, 0⟩).1 = .ok plan
      ∧ Plan.decode? plan.toJson = some loaded ∧ (loaded == plan) = false := by
  have haccepted : marked.Accepted := by
    unfold DesiredState.Accepted
    decide +kernel
  obtain ⟨plan, hplan, hread⟩ := exists_ok_of_toOption
    (f := fun p : Plan => (Plan.decode? p.toJson).map (· == p))
    (x := (generatePlan (.ofSnapshot {}) standardAccessors ([{ kind := "api" }].map
      KindPlanner.toPlanner) marked {} ⟨0, 0⟩).1) (b := some false) (by decide +kernel)
  obtain ⟨loaded, hloaded, hdiffers⟩ := Option.map_eq_some_iff.mp hread
  exact ⟨rfl, haccepted, plan, loaded, hplan, hloaded, hdiffers⟩

end Reconcile
