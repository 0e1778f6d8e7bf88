import Reconcile.Proofs.Links
import Reconcile.Proofs.Lists
import Reconcile.Proofs.Order.Waiting
import Reconcile.Proofs.Resolution.Findings

/-!
# Proofs/Resolution/Changes — what resolution makes of the changes of a batch

Resolution extends changes by dependencies, and whatever is left unknown in one is **backed**: the
change depends on a create of the batch that makes it.  This is read off the effect on a change,
where what is found for its references can be relied on (`backed_of_references`,
`backs_of_parent`).  Over a snapshot: `Scene.forall₂_resolved`.
-/

namespace Reconcile

/-! ## What is backed -/

/-- A change depends on a create of the batch that makes a resource. -/
def Change.Backs (c : Change) (upcoming : List Upcoming) (kind : Option String) (ref : String) :
    Prop :=
  ∃ u ∈ upcoming, u.ref = ref ∧ (∀ k, kind = some k → u.kind = k) ∧ u.id ∈ c.dependsOn

/-- Whatever is left unknown in a field is backed, and every item of a list has an identifier. -/
structure ResolvedField.Backed (f : ResolvedField) (upcoming : List Upcoming) (c : Change)
    (field : String) : Prop where
  scalar : f.id = unknownId → c.Backs upcoming (targetKind? field) f.target
  parallel : f.targets.length = f.ids.length
  item : ∀ (i : Nat) target, f.targets[i]? = some target → f.ids[i]? = some unknownId →
    c.Backs upcoming (targetKind? field) target

/-- A scalar field that has an identifier, or is backed. -/
theorem backed_scalar {upcoming : List Upcoming} {c : Change} {field : String} {f : ResolvedField}
    (htargets : f.targets = []) (hids : f.ids = [])
    (h : f.id = unknownId → c.Backs upcoming (targetKind? field) f.target) :
    f.Backed upcoming c field where
  scalar := h
  parallel := by rw [htargets, hids]
  item i target htarget := by simp [htargets] at htarget

variable {upcoming : List Upcoming} {b b' : Change} {kind : Option String} {ref field : String}

theorem Change.Backs.mono (h : b.Backs upcoming kind ref) (hsub : b.dependsOn ⊆ b'.dependsOn) :
    b'.Backs upcoming kind ref := by
  obtain ⟨u, hu, href, hkind, hmem⟩ := h
  exact ⟨u, hu, href, hkind, hsub hmem⟩

theorem ResolvedField.Backed.mono {f : ResolvedField} (h : f.Backed upcoming b field)
    (hsub : b.dependsOn ⊆ b'.dependsOn) : f.Backed upcoming b' field where
  scalar hid := (h.scalar hid).mono hsub
  parallel := h.parallel
  item i target htarget hid := (h.item i target htarget hid).mono hsub

/-! ## What a change refers to -/

/-- **A change refers to something**: in a scalar field, in an item of a list, or as its parent, if
that has no identifier.  These are the references that are resolved. -/
inductive Change.Refers (c : Change) : Option String → Reference → Prop
  | scalar {field : String} {v : Value} {r : Reference} (hfield : c.fields.get? field = some v)
      (hr : referenceIn? (targetKind? field) v = some r) : c.Refers (targetKind? field) r
  | item {field : String} {items : List Value} {item : Value} {r : Reference}
      (hfield : c.fields.get? field = some (.list items)) (hitem : item ∈ items)
      (hr : referenceIn? (targetKind? field) item = some r) : c.Refers (targetKind? field) r
  | parent {p : Parent} (hparent : c.parent = some p) (hid : p.id = none) :
      c.Refers (some p.kind) (.toId p.ref)

/-- What is found for the references of a change can be relied on. -/
def Surroundings.Reliable (s : Surroundings) (look : Look) (c : Change) : Prop :=
  ∀ kind r, c.Refers kind r → (s.find look c.id kind r).Sound s.upcoming c.id kind r.target

namespace Resolution

variable {s : Surroundings} {look : Look} {c : Change} {e : Effect} {target : String}
  {finding : Finding}

/-! ## References -/

/-- A reference that waits is backed, if its create is waited for. -/
theorem backs_of_pending {dependency name : String}
    (h : (Finding.pending dependency name).Sound upcoming c.id kind ref)
    (hmem : dependency ∈ e.awaited) : (e.onChange c).Backs upcoming kind ref := by
  obtain ⟨u, hu, rfl, hne, href, hkind⟩ := h
  exact ⟨u, hu, href, hkind, mem_dependsOn_onChange.mpr (.inr ⟨hmem, hne⟩)⟩

/-- What is written down for a scalar field is backed. -/
theorem backed_of_field? {f : ResolvedField}
    (hsound : finding.Sound upcoming c.id (targetKind? field) target)
    (hf : finding.field? target = some f)
    (hsub : (finding.noted c.id field target).awaited ⊆ e.awaited) :
    f.Backed upcoming (e.onChange c) field := by
  rcases finding with ⟨value, name⟩ | ⟨dependency, name⟩ | ⟨kind, reason⟩
  · obtain rfl := Option.some.inj hf
    exact backed_scalar rfl rfl fun hid => absurd hid hsound
  · obtain rfl := Option.some.inj hf
    exact backed_scalar rfl rfl fun _ => backs_of_pending hsound (hsub List.mem_cons_self)
  · exact absurd hf (by simp [Finding.field?])

/-- An item has an identifier, or is backed. -/
def ResolvedItem.Backed (item : ResolvedItem) (upcoming : List Upcoming) (c : Change)
    (field : String) : Prop :=
  item.id = unknownId → c.Backs upcoming (targetKind? field) item.target

theorem backed_of_item? {x : ResolvedItem}
    (hsound : finding.Sound upcoming c.id (targetKind? field) target)
    (hx : finding.item? target = some x)
    (hsub : (finding.noted c.id field target).awaited ⊆ e.awaited) :
    x.Backed upcoming (e.onChange c) field := by
  rcases finding with ⟨value, name⟩ | ⟨dependency, name⟩ | ⟨kind, reason⟩
  · obtain rfl := Option.some.inj hx
    exact fun hid => absurd hid hsound
  · obtain rfl := Option.some.inj hx
    exact fun _ => backs_of_pending hsound (hsub List.mem_cons_self)
  · exact absurd hx (by simp [Finding.item?])

/-! ## Fields -/

theorem looksLikeRemoteId_unknownId : looksLikeRemoteId unknownId = false := by decide

theorem awaited_referenceEffect (s : Surroundings) (look : Look) (changeId field : String)
    (r : Reference) : (referenceEffect s look changeId field r).awaited
      = ((s.find look changeId (targetKind? field) r).noted changeId field r.target).awaited :=
  List.nil_append _

/-- What is written down for a scalar field is what was found for its reference. -/
theorem mem_written_scalarEffect {changeId : String} {r : Reference} {f : ResolvedField} :
    (field, f) ∈ (scalarEffect s look changeId field r).written
      ↔ (s.find look changeId (targetKind? field) r).field? r.target = some f := by
  simp [written_scalarEffect]

theorem written_itemEffect (s : Surroundings) (look : Look) (changeId field : String)
    (item : Value) : (itemEffect s look changeId field item).written = [] := by
  unfold itemEffect
  split
  · rfl
  · split
    · rfl
    · exact written_referenceEffect s look changeId field _

/-- A list is written down as a whole, or not at all. -/
theorem mem_written_listEffect {changeId : String} {items : List Value} {f : ResolvedField} :
    (field, f) ∈ (listEffect s look changeId field items).written
      ↔ listOf? s look changeId field items = some f := by
  simp [listEffect, List.flatMap_map, written_itemEffect]

/-- What is written down for a list comes of its items. -/
theorem exists_of_listOf? {changeId : String} {items : List Value} {f : ResolvedField}
    (h : listOf? s look changeId field items = some f) :
    ∃ resolved, f = listField resolved
      ∧ ∀ x ∈ resolved, ∃ item ∈ items, itemOf? s look changeId field item = some x := by
  unfold listOf? at h
  split at h
  · next resolved hresolved =>
    split at h
    · exact absurd h (by simp)
    · refine ⟨resolved, (Option.some.inj h).symm, fun x hx => ?_⟩
      have hmem : some x ∈ items.map (itemOf? s look changeId field) := by
        rw [eq_map_some_of_mapM_id hresolved]
        exact List.mem_map_of_mem hx
      exact List.mem_map.mp hmem
  · exact absurd h (by simp)

/-- **All that a field can have for an effect**: none, that of a list, or that of a reference. -/
theorem fieldEffect_cases (s : Surroundings) (look : Look) (changeId field : String) (v : Value) :
    fieldEffect s look changeId field v = {}
    ∨ (∃ items, v = .list items
      ∧ fieldEffect s look changeId field v = listEffect s look changeId field items)
    ∨ ∃ r, referenceIn? (targetKind? field) v = some r
      ∧ fieldEffect s look changeId field v = scalarEffect s look changeId field r := by
  unfold fieldEffect
  split
  · split
    · exact .inr (.inl ⟨_, rfl, rfl⟩)
    · split
      · next r hr => exact .inr (.inr ⟨r, hr, rfl⟩)
      · exact .inl rfl
  · exact .inl rfl

/-- What comes of an item of a list is backed. -/
theorem backed_of_itemOf? (hreliable : s.Reliable look c) {items : List Value}
    (hfield : c.fields.get? field = some (.list items)) {item : Value} (hitem : item ∈ items)
    {x : ResolvedItem} (hx : itemOf? s look c.id field item = some x)
    (hsub : (itemEffect s look c.id field item).awaited ⊆ e.awaited) :
    x.Backed s.upcoming (e.onChange c) field := by
  unfold itemOf? at hx
  unfold itemEffect at hsub
  rcases hremote : item.text?.filter looksLikeRemoteId with _ | id
  · simp only [hremote] at hx hsub
    obtain ⟨r, hr, hx⟩ := Option.bind_eq_some_iff.mp hx
    simp only [hr, awaited_referenceEffect] at hsub
    exact backed_of_item? (hreliable _ _ (.item hfield hitem hr)) hx hsub
  · simp only [hremote] at hx
    obtain rfl := Option.some.inj hx
    intro hunknown
    have hlooks := (Option.filter_eq_some_iff.mp hremote).2
    rw [show id = unknownId from hunknown, looksLikeRemoteId_unknownId] at hlooks
    exact absurd hlooks (by simp)

/-- A list of backed items is backed. -/
theorem backed_listField {items : List ResolvedItem}
    (h : ∀ i ∈ items, i.Backed upcoming b field) : (listField items).Backed upcoming b field where
  scalar hid := absurd (show "" = unknownId from hid) (by decide)
  parallel := by rw [listField, List.length_map, List.length_map]
  item i target htarget hid := by
    rw [listField, List.getElem?_map, Option.map_eq_some_iff] at htarget hid
    obtain ⟨item, hitem, rfl⟩ := htarget
    obtain ⟨item', hitem', hunknown⟩ := hid
    obtain rfl := Option.some.inj (hitem.symm.trans hitem')
    exact h item (List.mem_of_getElem? hitem) hunknown

theorem backed_of_mem_listEffect (hreliable : s.Reliable look c) {items : List Value}
    (hfield : c.fields.get? field = some (.list items)) {f : ResolvedField}
    (hf : (field, f) ∈ (listEffect s look c.id field items).written)
    (hsub : (listEffect s look c.id field items).awaited ⊆ e.awaited) :
    f.Backed s.upcoming (e.onChange c) field := by
  have hitems : ∀ item ∈ items, (itemEffect s look c.id field item).awaited ⊆ e.awaited := by
    intro item hitem d hd
    refine hsub (List.mem_append_left _ ?_)
    rw [Effect.awaited_sum, List.flatMap_map]
    exact List.mem_flatMap.mpr ⟨item, hitem, hd⟩
  obtain ⟨resolved, rfl, hresolved⟩ := exists_of_listOf? (mem_written_listEffect.mp hf)
  refine backed_listField fun x hx => ?_
  obtain ⟨item, hitem, hx⟩ := hresolved x hx
  exact backed_of_itemOf? hreliable hfield hitem hx (hitems item hitem)

/-- What is written down for a field is backed. -/
theorem backed_of_mem_fieldEffect (hreliable : s.Reliable look c) {v : Value}
    (hfield : c.fields.get? field = some v) {f : ResolvedField}
    (hf : (field, f) ∈ (fieldEffect s look c.id field v).written)
    (hsub : (fieldEffect s look c.id field v).awaited ⊆ e.awaited) :
    f.Backed s.upcoming (e.onChange c) field := by
  rcases fieldEffect_cases s look c.id field v with heq | ⟨items, rfl, heq⟩ | ⟨r, hr, heq⟩ <;>
    rw [heq] at hf hsub
  · exact absurd hf List.not_mem_nil
  · exact backed_of_mem_listEffect hreliable hfield hf hsub
  · have hfind := mem_written_scalarEffect.mp hf
    refine backed_of_field? (hreliable _ _ (.scalar hfield hr)) hfind fun d hd => hsub ?_
    rw [← awaited_referenceEffect] at hd
    exact List.mem_append_left _ hd

/-! ## Changes -/

theorem written_parentEffect (s : Surroundings) (look : Look) (changeId : String)
    (parent : Option Parent) : (parentEffect s look changeId parent).written = [] := by
  rcases parent with _ | ⟨kind, ref, _ | id⟩
  · rfl
  · unfold parentEffect
    dsimp only
    split <;> rfl
  · rfl

/-- **What is written down for a change comes from one of its fields.** -/
theorem exists_field_of_written {f : ResolvedField}
    (hwritten : (field, f) ∈ (effectOf s look c).written) :
    ∃ v, c.fields.get? field = some v ∧ (field, f) ∈ (fieldEffect s look c.id field v).written
      ∧ (fieldEffect s look c.id field v).awaited ⊆ (effectOf s look c).awaited := by
  unfold effectOf at hwritten
  split at hwritten
  · exact absurd hwritten List.not_mem_nil
  · next haction =>
    rw [Effect.written_append, written_parentEffect, List.append_nil, fieldsEffect,
      Effect.written_sum, List.flatMap_map] at hwritten
    obtain ⟨⟨key, v⟩, hentry, hmem⟩ := List.mem_flatMap.mp hwritten
    obtain rfl : field = key := (within_fieldEffect v).written _ hmem
    refine ⟨v, Dict.mem_entries_iff.mp hentry, hmem, fun d hd => ?_⟩
    rw [effectOf, if_neg haction, Effect.awaited_append, fieldsEffect, Effect.awaited_sum,
      List.flatMap_map]
    exact List.mem_append_left _ (List.mem_flatMap.mpr ⟨_, hentry, hd⟩)

/-- **What a change has for a field after resolution was written down for the field**, if it had
nothing there before. -/
theorem exists_written_of_references (hempty : c.references = ∅) {f : ResolvedField}
    (hf : ((effectOf s look c).onChange c).references.get? field = some f) :
    ∃ v, c.fields.get? field = some v ∧ (field, f) ∈ (fieldEffect s look c.id field v).written
      ∧ (fieldEffect s look c.id field v).awaited ⊆ (effectOf s look c).awaited := by
  rw [references_onChange, hempty] at hf
  exact exists_field_of_written
    ((Dict.mem_of_mem_foldl_insert (Dict.mem_entries_iff.mpr hf)).resolve_left List.not_mem_nil)

/-- **Whatever is left unknown in a field is backed.** -/
theorem backed_of_references (hempty : c.references = ∅) (hreliable : s.Reliable look c)
    {f : ResolvedField}
    (hf : ((effectOf s look c).onChange c).references.get? field = some f) :
    f.Backed s.upcoming ((effectOf s look c).onChange c) field := by
  obtain ⟨v, hfield, hmem, hsub⟩ := exists_written_of_references hempty hf
  exact backed_of_mem_fieldEffect hreliable hfield hmem hsub

/-- **A parent that is left without an identifier is backed**, if there are no faults. -/
theorem backs_of_parent (haction : c.action ≠ .delete) (hreliable : s.Reliable look c)
    (hfaults : (effectOf s look c).report.faults = []) {p : Parent}
    (hp : ((effectOf s look c).onChange c).parent = some p) (hid : p.id = none) :
    ((effectOf s look c).onChange c).Backs s.upcoming (some p.kind) p.ref := by
  have heffect : effectOf s look c
      = fieldsEffect s look c.id c.fields.entries ++ parentEffect s look c.id c.parent :=
    if_neg haction
  have hawaited : (parentEffect s look c.id c.parent).awaited ⊆ (effectOf s look c).awaited := by
    rw [heffect, Effect.awaited_append]
    exact List.subset_append_right _ _
  have hnil : (parentEffect s look c.id c.parent).report.faults = [] := by
    rw [heffect, Effect.report_append] at hfaults
    exact (List.append_eq_nil_iff.mp hfaults).2
  rw [parent_onChange] at hp
  split at hp
  · obtain ⟨q, -, rfl⟩ := Option.map_eq_some_iff.mp hp
    exact absurd hid (by simp)
  · next hfound =>
    obtain ⟨pkind, pref, pid⟩ := p
    obtain rfl : pid = none := hid
    have hor : (parentEffect s look c.id c.parent).parent = none := by
      rw [heffect, Effect.parent_append] at hfound
      exact (Option.or_eq_none_iff.mp hfound).1
    have hsound := hreliable _ _ (.parent hp rfl)
    rw [hp] at hor hnil hawaited
    unfold parentEffect at hor hnil hawaited
    rcases hfind : s.find look c.id (some pkind) (.toId pref) with ⟨value, name⟩
      | ⟨dependency, name⟩ | ⟨kind, reason⟩ <;> simp only [hfind] at hor hnil hawaited hsound
    · exact absurd hor (by simp)
    · exact backs_of_pending hsound (hawaited List.mem_cons_self)
    · exact absurd hnil (by simp [Tally.append_eq, Tally.addFault])

/-- Before references are resolved a change knows of none, and a delete has no parent. -/
def Plain (b : Change) : Prop := b.references = ∅ ∧ (b.action = .delete → b.parent = none)

end Resolution

/-! ## Over a snapshot -/

/-- **What resolution makes of a change.** -/
structure Change.Resolved (c : Scene) (upcoming : List Upcoming) (b b' : Change) : Prop where
  links : b.Extends b'
  references : c.NowhereUnknown → ∀ field f, b'.references.get? field = some f →
    f.Backed upcoming b' field
  parent : c.NowhereUnknown → ∀ p, b'.parent = some p → p.id = none →
    b'.Backs upcoming (some p.kind) p.ref

namespace Resolution

theorem resolved_onChange {c : Scene} {b : Change} (hplain : Plain b)
    (hnil : (effectOf (c.around upcoming) c.snapshot.look b).report.faults = []) :
    b.Resolved c upcoming ((effectOf (c.around upcoming) c.snapshot.look b).onChange b) := by
  have hreliable : c.NowhereUnknown → (c.around upcoming).Reliable c.snapshot.look b :=
    fun hunknown kind r _ => Scene.sound_find hunknown
  refine ⟨extends_onChange _ b, fun hunknown field f hf => ?_, fun hunknown p hp hid => ?_⟩
  · exact backed_of_references hplain.1 (hreliable hunknown) hf
  · by_cases hdelete : b.action = .delete
    · have hnone : effectOf (c.around upcoming) c.snapshot.look b = {} := if_pos hdelete
      rw [hnone, Effect.onChange_nil, hplain.2 hdelete] at hp
      exact absurd hp (by simp)
    · exact backs_of_parent hdelete (hreliable hunknown) hnil hp hid

/-- The warnings on a batch are those on its changes. -/
theorem warnings_batchEffect (s : Surroundings) (look : Look) (changes : List Change) :
    (batchEffect s look changes).report.warnings
      = changes.flatMap fun e => (effectOf s look e).report.warnings := by
  rw [batchEffect, Effect.warnings_sum, List.flatMap_map]

/-- The faults of a batch are those of its changes. -/
theorem faults_batchEffect (s : Surroundings) (look : Look) (changes : List Change) :
    (batchEffect s look changes).report.faults
      = changes.flatMap fun e => (effectOf s look e).report.faults := by
  rw [batchEffect, Effect.faults_sum, List.flatMap_map]

/-- A batch without faults has none in any of its changes. -/
theorem faults_effectOf_of_batch {s : Surroundings} {look : Look} {changes : List Change}
    (hnil : (batchEffect s look changes).report.faults = []) {b : Change} (hb : b ∈ changes) :
    (effectOf s look b).report.faults = [] := by
  rw [faults_batchEffect] at hnil
  exact List.flatMap_eq_nil_iff.mp hnil b hb

end Resolution

/-- What resolution makes of a batch. -/
def Scene.resolved (c : Scene) (changes : List Change) : List Change :=
  changes.map fun e =>
    (Resolution.effectOf (c.around (upcomingOf changes)) c.snapshot.look e).onChange e

/-- What resolution of a batch reports. -/
def Scene.report (c : Scene) (changes : List Change) : Tally :=
  (Resolution.batchEffect (c.around (upcomingOf changes)) c.snapshot.look changes).report

/-- **Resolution of a batch over a snapshot.** -/
theorem Scene.exists_resolveReferences_eq {c : Scene} {session : Session}
    (hs : session.Faithful IsSingle c.snapshot) (bs : List Change) :
    ∃ session', resolveReferences (.ofSnapshot c.snapshot) c.desired.index c.accessors bs session
      = (.ok (c.report bs), c.resolved bs, session') :=
  ⟨_, resolveReferences_eq (s := c.around (upcomingOf bs)) rfl (answers_ofSnapshot hs).1⟩

/-- **Every change of a batch that could be resolved is resolved.** -/
theorem Scene.forall₂_resolved {c : Scene} {bs : List Change}
    (hplain : ∀ b ∈ bs, Resolution.Plain b) (hnil : (c.report bs).faults = []) :
    List.Forall₂ (Change.Resolved c (upcomingOf bs)) bs (c.resolved bs) := by
  rw [resolved, List.forall₂_map_right_iff, List.forall₂_same]
  exact fun b hb => Resolution.resolved_onChange (hplain b hb)
    (Resolution.faults_effectOf_of_batch hnil hb)

end Reconcile
