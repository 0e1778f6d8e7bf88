import Reconcile.Proofs.Digest.Matching
import Reconcile.Proofs.Documents.Records
import Reconcile.Proofs.Documents.Values
import Reconcile.Run

/-!
# Proofs/Documents/RoundTrip — a plan that was read survives being written

Each record of a plan is read as it was written (`Parent.decode?_toJson` and its like), a change if
its field values come back (`Change.Restorable`), a plan if its changes do and its instant is read
as it is written.  Main fact: `roundTrip_of_decode?` — reading, whatever the format, leaves nothing
that does not come back, so a plan that was read is the plan that its own document holds.
-/

namespace Reconcile

/-! ## The parts of a change -/

theorem Protection.decode?_toJson (p : Protection) : Protection.decode? p.toJson = some p := by
  cases p with
  | status on => rfl
  | flip f => rfl

theorem Parent.decode?_toJson (p : Parent) : Parent.decode? p.toJson = some p := by
  obtain ⟨r, hr, hlookup⟩ : ∃ r : Record Json,
      Record.of? ["type", "ref", "id"] p.toJson = some r ∧ _ :=
    Record.of?_ofParts (by simp) (by decide)
  have hkind : r.required "type" Source.text? = some p.kind :=
    Record.required_eq (.string p.kind) (by simp [hlookup, List.lookup_append])
  have href : r.required "ref" Source.text? = some p.ref :=
    Record.required_eq (.string p.ref) (by simp [hlookup, List.lookup_append])
  have hid : r.optional "id" Source.text? = some p.id :=
    Record.optional_eq Json.string (by simp [hlookup, List.lookup_append])
      (fun _ => rfl) fun _ => rfl
  simp [Parent.decode?, hr, hkind, href, hid]

theorem ResolvedField.decode?_toJson (f : ResolvedField) :
    ResolvedField.decode? f.toJson = some f := by
  obtain ⟨r, hr, hlookup⟩ : ∃ r : Record Json, Record.of?
      ["ref", "id", "lookup_fields", "refs", "resolved_ids", "lookup_arrays", "is_array"] f.toJson
        = some r ∧ _ :=
    Record.of?_ofParts (by simp) (by decide)
  have htarget : r.orElse "ref" Source.text? "" = some f.target :=
    Record.orElse_text (by simp [hlookup, List.lookup_append])
  have hid : r.orElse "id" Source.text? "" = some f.id :=
    Record.orElse_text (by simp [hlookup, List.lookup_append])
  have hhints : r.orElse "lookup_fields" Source.textDict? ∅ = some f.hints :=
    Record.orElse_textDict (by simp [hlookup, List.lookup_append])
  have htargets : r.orElse "refs" Source.texts? [] = some f.targets :=
    Record.orElse_texts (by simp [hlookup, List.lookup_append])
  have hids : r.orElse "resolved_ids" Source.texts? [] = some f.ids :=
    Record.orElse_texts (by simp [hlookup, List.lookup_append])
  have hlists : r.orElse "lookup_arrays" (Source.dict? Source.texts?) ∅ = some f.hintLists :=
    Record.orElse_dict Json.strings (by simp [hlookup, List.lookup_append])
      fun _ _ => Json.texts?_strings _
  have hisList : r.orElse "is_array" Source.bool? false = some f.isList :=
    Record.orElse_eq (.bool f.isList) (!f.isList) (by simp [hlookup, List.lookup_append]) rfl
      (by simp)
  simp [ResolvedField.decode?, hr, htarget, hid, hhints, htargets, hids, hlists, hisList]

/-! ## Changes -/

/-- Every field value is what its own tree holds. -/
def Change.Restorable (c : Change) : Prop :=
  ∀ e ∈ c.fields.entries, Value.ofJson e.2.toJson = e.2

/-- The field values that a reader gives are what their own trees hold. -/
theorem Record.restorable_of_orElse {δ : Type} [Source δ] {r : Record δ} {name : String}
    {fields : FieldMap} (h : r.orElse name FieldMap.decode? ∅ = some fields) :
    ∀ e ∈ fields.entries, Value.ofJson e.2.toJson = e.2 := by
  intro e he
  obtain ⟨x, hx⟩ := Record.exists_of_mem_of_orElse_dict h he
  obtain ⟨j, -, hj⟩ := Option.map_eq_some_iff.mp hx
  rw [← hj]
  exact Value.ofJson_toJson_ofJson j

/-- What a reader of changes gives is restorable. -/
theorem Change.restorable_of_decode? {δ : Type} [Source δ] {d : δ} {c : Change}
    (h : Change.decode? d = some c) : c.Restorable := by
  obtain ⟨r, -, h⟩ := Option.bind_eq_some_iff.mp h
  -- Six parts are read in front of the fields, and five behind them.
  iterate 6 obtain ⟨_, -, h⟩ := Option.bind_eq_some_iff.mp h
  obtain ⟨fields, hfields, h⟩ := Option.bind_eq_some_iff.mp h
  iterate 5 obtain ⟨_, -, h⟩ := Option.bind_eq_some_iff.mp h
  obtain rfl := Option.some.inj h
  exact Record.restorable_of_orElse hfields

/-- A change as it comes back: each field value is the one that its tree holds. -/
def Change.reread (c : Change) : Change :=
  { c with fields := c.fields.map fun v => .ofJson v.toJson }

/-- **A change is read as it is written**, up to its field values. -/
theorem Change.decode?_toJson_eq_reread (c : Change) :
    Change.decode? c.toJson = some c.reread := by
  obtain ⟨r, hr, hlookup⟩ : ∃ r : Record Json, Record.of? ["id", "resource_type", "resource_ref",
      "resource_id", "resource_monikers", "action", "fields", "references", "parent", "protection",
      "namespace", "depends_on"] c.toJson = some r ∧ _ :=
    Record.of?_ofParts (by simp) (by decide)
  have hid : r.required "id" Source.text? = some c.id :=
    Record.required_eq (.string c.id) (by simp [hlookup, List.lookup_append])
  have hkind : r.required "resource_type" Source.text? = some c.kind :=
    Record.required_eq (.string c.kind) (by simp [hlookup, List.lookup_append])
  have href : r.required "resource_ref" Source.text? = some c.ref :=
    Record.required_eq (.string c.ref) (by simp [hlookup, List.lookup_append])
  have hresource : r.optional "resource_id" Source.text? = some c.resourceId :=
    Record.optional_eq Json.string (by simp [hlookup, List.lookup_append])
      (fun _ => rfl) fun _ => rfl
  have hmonikers : r.orElse "resource_monikers" Source.textDict? ∅ = some c.monikers :=
    Record.orElse_textDict (by simp [hlookup, List.lookup_append])
  have haction : r.required "action" Action.decode? = some c.action := by
    rw [Record.required_eq (.string c.action.name) (by simp [hlookup, List.lookup_append])]
    exact Action.ofName?_name c.action
  have hfields : r.orElse "fields" FieldMap.decode? ∅
      = some (c.fields.map fun v => .ofJson v.toJson) :=
    Record.orElse_dict_map Value.toJson
      (by simp [hlookup, List.lookup_append, FieldMap.toJson_eq]) fun _ _ => rfl
  have hreferences : r.orElse "references" (Source.dict? ResolvedField.decode?) ∅
      = some c.references :=
    Record.orElse_dict ResolvedField.toJson (by simp [hlookup, List.lookup_append])
      fun _ _ => ResolvedField.decode?_toJson _
  have hparent : r.optional "parent" Parent.decode? = some c.parent :=
    Record.optional_eq Parent.toJson (by simp [hlookup, List.lookup_append])
      Parent.decode?_toJson fun _ => rfl
  have hprotection : r.optional "protection" Protection.decode? = some c.protection :=
    Record.optional_eq Protection.toJson (by simp [hlookup, List.lookup_append])
      Protection.decode?_toJson fun p => by cases p <;> rfl
  have hscope : r.orElse "namespace" Source.text? "" = some c.scope :=
    Record.orElse_text (by simp [hlookup, List.lookup_append])
  have hdependsOn : r.orElse "depends_on" Source.texts? [] = some c.dependsOn :=
    Record.orElse_texts (by simp [hlookup, List.lookup_append])
  rw [Change.decode?, bind_of_eq_some hr, bind_of_eq_some hid, bind_of_eq_some hkind,
    bind_of_eq_some href, bind_of_eq_some hresource, bind_of_eq_some hmonikers,
    bind_of_eq_some haction, bind_of_eq_some hfields, bind_of_eq_some hreferences,
    bind_of_eq_some hparent, bind_of_eq_some hprotection, bind_of_eq_some hscope,
    bind_of_eq_some hdependsOn]
  rfl

theorem Change.Restorable.reread_eq {c : Change} (h : c.Restorable) : c.reread = c := by
  have hfields : (c.fields.map fun v => .ofJson v.toJson) = c.fields :=
    Dict.map_eq_self_iff.mpr fun e he => h e he
  rw [Change.reread, hfields]

theorem Change.decode?_toJson {c : Change} (h : c.Restorable) :
    Change.decode? c.toJson = some c := by
  rw [decode?_toJson_eq_reread, h.reread_eq]

/-! ## The other parts of a plan -/

theorem FlipCounts.decode?_toJson (f : FlipCounts) : FlipCounts.decode? f.toJson = some f := by
  have hr : Record.of? ["protecting", "unprotecting"] f.toJson = some ⟨_⟩ :=
    Record.of?_object (List.Sublist.refl _) (by decide)
  simp [FlipCounts.decode?, hr, Record.required, Json.natural?_nat, List.lookup_cons]

theorem Summary.decode?_toJson (s : Summary) : Summary.decode? s.toJson = some s := by
  obtain ⟨r, hr, hlookup⟩ : ∃ r : Record Json,
      Record.of? ["total_changes", "by_action", "by_resource", "protection_changes"] s.toJson
        = some r ∧ _ :=
    Record.of?_ofParts (by simp) (by decide)
  have htotal : r.required "total_changes" Source.natural? = some s.total := by
    rw [Record.required_eq (.nat s.total) (by simp [hlookup, List.lookup_append])]
    exact Json.natural?_nat s.total
  have hread : ∀ d : Dict Nat,
      Source.dict? Source.natural? (Json.object (d.map Json.nat).entries) = some d :=
    fun d => Json.dict?_object fun _ _ => Json.natural?_nat _
  have haction : r.orElse "by_action" (Source.dict? Source.natural?) ∅ = some s.byAction :=
    Record.orElse_of_there (by simp [hlookup, List.lookup_append]) (hread _)
  have hkind : r.orElse "by_resource" (Source.dict? Source.natural?) ∅ = some s.byKind :=
    Record.orElse_of_there (by simp [hlookup, List.lookup_append]) (hread _)
  have hflips : r.optional "protection_changes" FlipCounts.decode? = some s.flips :=
    Record.optional_eq FlipCounts.toJson (by simp [hlookup, List.lookup_append])
      FlipCounts.decode?_toJson fun _ => rfl
  simp [Summary.decode?, hr, htotal, haction, hkind, hflips]

theorem Warning.decode?_toJson (w : Warning) : Warning.decode? w.toJson = some w := by
  have hr : Record.of? ["change_id", "message"] w.toJson = some ⟨_⟩ :=
    Record.of?_object (List.Sublist.refl _) (by decide)
  simp [Warning.decode?, hr, Record.required, List.lookup_cons, Json.text?_string]

theorem Metadata.decode?_toJson {m : Metadata}
    (h : Timestamp.parse? m.generatedAt.text = some m.generatedAt) :
    Metadata.decode? m.toJson = some m := by
  have hr : Record.of? ["version", "generated_at", "generator", "mode"] m.toJson = some ⟨_⟩ :=
    Record.of?_object (List.Sublist.refl _) (by decide)
  have htime : Timestamp.decode? (Json.string m.generatedAt.text) = some m.generatedAt := by
    rw [Timestamp.decode?, Json.text?_string, Option.bind_some, h]
  have hmode : Mode.decode? (Json.string m.mode.name) = some m.mode := Mode.ofName?_name m.mode
  simp [Metadata.decode?, hr, Record.required, List.lookup_cons, htime, hmode, Json.text?_string]

/-! ## Plans -/

/-- The instant is read as it is written, and every change is restorable. -/
structure Plan.Restorable (p : Plan) : Prop where
  instant : Timestamp.parse? p.metadata.generatedAt.text = some p.metadata.generatedAt
  changes : ∀ c ∈ p.changes, c.Restorable

/-- A plan as it comes back. -/
def Plan.reread (p : Plan) : Plan := { p with changes := p.changes.map Change.reread }

/-- **A plan whose instant is read as it is written can be loaded**, and is the same up to the field
values of its changes. -/
theorem Plan.decode?_toJson_eq_reread {p : Plan}
    (hinstant : Timestamp.parse? p.metadata.generatedAt.text = some p.metadata.generatedAt) :
    Plan.decode? p.toJson = some p.reread := by
  obtain ⟨r, hr, hlookup⟩ : ∃ r : Record Json,
      Record.of? ["metadata", "changes", "execution_order", "summary", "warnings"] p.toJson
        = some r ∧ _ :=
    Record.of?_ofParts (by simp) (by decide)
  have hmetadata : r.required "metadata" Metadata.decode? = some p.metadata := by
    rw [Record.required_eq p.metadata.toJson (by simp [hlookup, List.lookup_append])]
    exact Metadata.decode?_toJson hinstant
  have hchanges : r.orElse "changes" (Source.list? Change.decode?) []
      = some (p.changes.map Change.reread) :=
    Record.orElse_of_there (by simp [hlookup, List.lookup_append])
      (Json.list?_array_map fun c _ => Change.decode?_toJson_eq_reread c)
  have horder : r.orElse "execution_order" Source.texts? [] = some p.order :=
    Record.orElse_of_there (by simp [hlookup, List.lookup_append]) (Json.texts?_strings _)
  have hsummary : r.orElse "summary" Summary.decode? {} = some p.summary :=
    Record.orElse_of_there (by simp [hlookup, List.lookup_append])
      (Summary.decode?_toJson _)
  have hwarnings : r.orElse "warnings" (Source.list? Warning.decode?) [] = some p.warnings :=
    Record.orElse_list Warning.toJson (by simp [hlookup, List.lookup_append])
      fun w _ => Warning.decode?_toJson w
  simp [Plan.decode?, hr, hmetadata, hchanges, horder, hsummary, hwarnings, Plan.reread]

theorem Plan.reread_eq_of_forall {p : Plan} (h : ∀ c ∈ p.changes, c.Restorable) :
    p.reread = p := by
  have hchanges : p.changes.map Change.reread = p.changes.map id :=
    List.map_congr_left fun c hc => (h c hc).reread_eq
  rw [Plan.reread, hchanges, List.map_id]

theorem Plan.decode?_toJson {p : Plan} (h : p.Restorable) : Plan.decode? p.toJson = some p := by
  rw [decode?_toJson_eq_reread h.instant, reread_eq_of_forall h.changes]

theorem Plan.restorable_of_decode? {δ : Type} [Source δ] {d : δ} {p : Plan}
    (h : Plan.decode? d = some p)
    (hinstant : Timestamp.parse? p.metadata.generatedAt.text = some p.metadata.generatedAt) :
    p.Restorable := by
  obtain ⟨r, -, h⟩ := Option.bind_eq_some_iff.mp h
  obtain ⟨_, -, h⟩ := Option.bind_eq_some_iff.mp h
  obtain ⟨changes, hchanges, h⟩ := Option.bind_eq_some_iff.mp h
  iterate 3 obtain ⟨_, -, h⟩ := Option.bind_eq_some_iff.mp h
  obtain rfl := Option.some.inj h
  refine ⟨hinstant, fun c hc => ?_⟩
  obtain ⟨e, he⟩ := Record.exists_of_mem_of_orElse_list hchanges hc
  exact Change.restorable_of_decode? he

/-! ## Equality and digests -/

instance {α : Type} [BEq α] [ReflBEq α] : ReflBEq (Dict α) :=
  ⟨fun {d} => (beq_self_eq_true d.entries : (d.entries == d.entries) = true)⟩

instance : ReflBEq Change :=
  ⟨fun {c} => by
    have hparts : (c == c) = (c.id == c.id && (c.kind == c.kind && (c.ref == c.ref
        && (c.resourceId == c.resourceId && (c.monikers == c.monikers && (c.action == c.action
        && (c.fields == c.fields && (c.references == c.references && (c.parent == c.parent
        && (c.protection == c.protection && (c.scope == c.scope
        && c.dependsOn == c.dependsOn))))))))))) := rfl
    rw [hparts]
    simp⟩

instance : ReflBEq Plan :=
  ⟨fun {p} => by
    have hparts : (p == p) = (p.metadata == p.metadata && (p.changes == p.changes
        && (p.order == p.order && (p.summary == p.summary && p.warnings == p.warnings)))) := rfl
    rw [hparts]
    simp⟩

theorem digestsMatch_self (a : String) : digestsMatch a a = true :=
  (sameBytes_iff a.toUTF8.toList a.toUTF8.toList).mpr rfl

/-! ## The round trip -/

/-- **A plan that was read survives being written.**  If its instant is read as it is written, the
document of the plan holds that very plan, with the digest it has; so the check before a plan is
shown passes, once the text of the document reads as the document. -/
theorem roundTrip_of_decode? {δ : Type} [Source δ] {d : δ} {p : Plan}
    (hload : Plan.decode? d = some p)
    (hinstant : Timestamp.parse? p.metadata.generatedAt.text = some p.metadata.generatedAt) :
    ∃ q, Plan.decode? p.toJson = some q ∧ q = p ∧ q.digest = p.digest
      ∧ (q == p && digestsMatch p.digest q.digest) = true
      ∧ (Json.decodeText? Plan.decode? p.toJson.compact = Plan.decode? p.toJson →
        Host.survivesWriting p = .ok true) := by
  have hread : Plan.decode? p.toJson = some p :=
    Plan.decode?_toJson (Plan.restorable_of_decode? hload hinstant)
  have hsame : (p == p && digestsMatch p.digest p.digest) = true := by
    rw [beq_self_eq_true, digestsMatch_self, Bool.and_true]
  refine ⟨p, hread, rfl, rfl, hsame, fun htext => ?_⟩
  have hloaded : Plan.ofText p.toJson.compact = .ok p := by
    rw [Plan.ofText, htext, hread]
  rw [Host.survivesWriting, hloaded]
  exact congrArg Except.ok hsame

/-- A plan as somebody may write it: an instant away from Greenwich, a reference without a field
below a list, a cleared field, a parent without an identifier, a flip, a member nobody knows. -/
def routeDocument : Json := .object [
  ("metadata", .object [("version", .string "1.0"), ("mode", .string "sync"),
    ("generated_at", .string "2024-03-05T06:07:08.5+01:00"), ("generator", .string "by hand")]),
  ("changes", .array [.object [
    ("id", .string "1:u:route:orders"), ("resource_type", .string "route"),
    ("resource_ref", .string "orders"), ("action", .object [("UPDATE", .null)]),
    ("fields", .object [("upstream", .array [.string "__REF__:pool"]), ("note", .null)]),
    ("parent", .object [("type", .string "api"), ("ref", .string "shop"), ("id", .null)]),
    ("protection", .array [.bool true, .bool false]), ("comment", .string "unread")]]),
  ("summary", .object [("total_changes", .number (.int 1))])]

theorem roundTrip_routeDocument : ∃ p : Plan, Plan.decode? routeDocument = some p
    ∧ Timestamp.parse? p.metadata.generatedAt.text = some p.metadata.generatedAt
    ∧ ∃ q, Plan.decode? p.toJson = some q ∧ q = p ∧ q.digest = p.digest
      ∧ (q == p && digestsMatch p.digest q.digest) = true
      ∧ (Json.decodeText? Plan.decode? p.toJson.compact = Plan.decode? p.toJson →
        Host.survivesWriting p = .ok true) := by
  have hdocument : ((Plan.decode? routeDocument).map fun p : Plan =>
      Timestamp.parse? p.metadata.generatedAt.text == some p.metadata.generatedAt) = some true := by
    decide +kernel
  obtain ⟨p, hload, hinstant⟩ := Option.map_eq_some_iff.mp hdocument
  exact ⟨p, hload, eq_of_beq hinstant, roundTrip_of_decode? hload (eq_of_beq hinstant)⟩

end Reconcile
