import Reconcile.Proofs.Accessors
import Reconcile.Proofs.Order.Sequence
import Reconcile.Proofs.Pass.Stages

/-!
# Proofs/Pass/WellLinked — the links of a plan hold

In a plan over a snapshot every identifier tells the place of its change, dependencies are listed
once each and name earlier changes, warnings name changes of the plan, and whatever does not exist
yet is made by a create that the change depends on (`Plan.WellLinked`).  Main fact:
`wellLinked_of_generatePlan`.
-/

namespace Reconcile

/-- **The links of a plan hold.** -/
structure Plan.WellLinked (p : Plan) : Prop where
  order : p.order = p.changes.map (·.id)
  numbered : ∀ (k : Nat) e, p.changes[k]? = some e →
    e.id = (ChangeId.mk (k + 1) e.action e.kind e.ref).text
  nodup : ∀ e ∈ p.changes, e.dependsOn.Nodup
  earlier : ∀ (k : Nat) e, p.changes[k]? = some e → ∀ d ∈ e.dependsOn,
    ∃ j < k, ∃ b, p.changes[j]? = some b ∧ b.id = d
  warned : ∀ w ∈ p.warnings, ∃ e ∈ p.changes, e.id = w.changeId
  backed : ∀ e ∈ p.changes, ∀ kind ref, e.Lacks kind ref → ∃ b ∈ p.changes,
    b.action = .create ∧ b.ref = ref ∧ (∀ k, kind = some k → b.kind = k) ∧ b.id ∈ e.dependsOn
  parallel : ∀ e ∈ p.changes, ∀ field f, e.references.get? field = some f →
    f.targets.length = f.ids.length

theorem Change.Numbered.extended {b b' : Change} (h : b.Numbered) (hlinks : b.Extends b') :
    b'.Numbered := by
  obtain ⟨n, hn⟩ := h
  have hparts : ChangeId.mk n b'.core.action b'.core.kind b'.core.ref
      = ChangeId.mk n b.action b.kind b.ref := by
    rw [hlinks.core]
    rfl
  exact ⟨n, hlinks.id.trans (hn.trans (congrArg ChangeId.text hparts.symm))⟩

namespace Passed

variable {c : Scene} {ks : List KindPlanner} {s : Sketch} {batch plan : Plan} {order : List String}
  {rename : String → String} {b e : Change}

/-- A change of the batch comes from one of the draft. -/
theorem exists_draft (h : Passed c ks s batch order rename plan) (hb : b ∈ batch.changes) :
    ∃ a ∈ s.changes, a.Resolved c (upcomingOf s.changes) b :=
  exists_left_of_mem h.resolved hb

theorem tidy (h : Passed c ks s batch order rename plan) (hb : b ∈ batch.changes) : b.Tidy := by
  obtain ⟨a, ha, hresolved⟩ := h.exists_draft hb
  have hnodup : (s.changes.map (·.id)).Nodup := h.ids_batch ▸ h.ordering.nodup_ids
  exact hresolved.links.tidy ((Scene.sound_of_run h.run).tidy hnodup ha)

theorem numbered_batch (h : Passed c ks s batch order rename plan) (hb : b ∈ batch.changes) :
    b.Numbered := by
  obtain ⟨a, ha, hresolved⟩ := h.exists_draft hb
  exact ((Scene.sound_of_run h.run).numbered a ha).extended hresolved.links

/-- A change keeps its action, kind and reference and tells its place. -/
theorem id_of_getElem? (h : Passed c ks s batch order rename plan) {k : Nat}
    (he : plan.changes[k]? = some e) : e.id = (ChangeId.mk (k + 1) e.action e.kind e.ref).text := by
  obtain ⟨b, hb, hk, rfl⟩ := h.numbered.exists_getElem? he
  obtain ⟨n, hn⟩ := h.numbered_batch hb
  have hmoved := h.numbered.moved k b.id hk
  rw [hn] at hmoved
  have htext := ChangeId.eq_text_of_moved? hmoved
  rw [← hn] at htext
  exact htext

/-- What is backed in the draft is made by a create of the plan. -/
theorem exists_create (h : Passed c ks s batch order rename plan) {kind : Option String}
    {ref : String} (hbacks : b.Backs (upcomingOf s.changes) kind ref) :
    ∃ d ∈ plan.changes, d.action = .create ∧ d.ref = ref ∧ (∀ k, kind = some k → d.kind = k)
      ∧ d.id ∈ (b.renamed rename).dependsOn := by
  obtain ⟨u, hu, href, hkind, hmem⟩ := hbacks
  obtain ⟨a, ha, rfl⟩ := List.mem_map.mp hu
  obtain ⟨ha, haction⟩ := List.mem_filter.mp ha
  obtain ⟨a', ha', hresolved⟩ := exists_right_of_mem h.resolved ha
  have hcore := hresolved.links.core
  have hplan : a'.renamed rename ∈ plan.changes :=
    h.numbered.perm_changes.mem_iff.mpr (List.mem_map_of_mem ha')
  refine ⟨_, hplan, ?_, ?_, fun k hk => ?_, List.mem_map.mpr ⟨a.id, hmem, ?_⟩⟩
  · exact (congrArg Change.action hcore).trans (eq_of_beq haction)
  · exact (congrArg Change.ref hcore).trans href
  · exact (congrArg Change.kind hcore).trans (hkind k hk)
  · exact congrArg rename hresolved.links.id.symm

/-- What a change of the batch lacks is backed. -/
theorem backs_of_lacks (h : Passed c ks s batch order rename plan) (hunknown : c.NowhereUnknown)
    (hb : b ∈ batch.changes) {kind : Option String} {ref : String} (hlacks : b.Lacks kind ref) :
    b.Backs (upcomingOf s.changes) kind ref := by
  obtain ⟨a, -, hresolved⟩ := h.exists_draft hb
  rcases hlacks with ⟨hfield, hid⟩ | ⟨hfield, htarget, hid⟩ | ⟨hparent, hid⟩
  · exact (hresolved.references hunknown _ _ hfield).scalar hid
  · exact (hresolved.references hunknown _ _ hfield).item _ _ htarget hid
  · exact hresolved.parent hunknown _ hparent hid

theorem lacks_of_renamed {kind : Option String} {ref : String}
    (h : (b.renamed rename).Lacks kind ref) : b.Lacks kind ref := by
  rcases h with ⟨hfield, hid⟩ | ⟨hfield, htarget, hid⟩ | ⟨hparent, hid⟩
  · exact .scalar hfield hid
  · exact .item hfield htarget hid
  · exact .parent hparent hid

/-- **The links of a plan that has gone through every stage hold.** -/
theorem wellLinked (h : Passed c ks s batch order rename plan) (hunknown : c.NowhereUnknown) :
    plan.WellLinked := by
  have hbatch : ∀ e ∈ plan.changes, ∃ b ∈ batch.changes, b.renamed rename = e := fun e he =>
    List.mem_map.mp (h.numbered.perm_changes.mem_iff.mp he)
  refine ⟨h.numbered.order, fun k e he => h.id_of_getElem? he, fun e he => ?_, ?_, ?_, ?_, ?_⟩
  · obtain ⟨b, hb, rfl⟩ := hbatch e he
    exact h.numbered.nodup_map_rename (h.tidy hb).1 (h.numbered.known b hb)
  · intro k e he d hd
    obtain ⟨b, hb, -, rfl⟩ := h.numbered.exists_getElem? he
    refine h.numbered.standsBefore h.ordering he hd fun heq => ?_
    obtain ⟨old, hold, rfl⟩ := List.mem_map.mp hd
    have hself : old = b.id := h.numbered.rename_injOn (h.ordering.mem_ids b hb old hold)
      (List.mem_map_of_mem hb) heq
    exact (h.tidy hb).2 (hself ▸ hold)
  · intro w hw
    rw [h.numbered.warnings] at hw
    obtain ⟨v, hv, rfl⟩ := List.mem_map.mp hw
    obtain ⟨b, hb, hid⟩ := List.mem_map.mp (h.numbered.warned v hv)
    exact ⟨_, List.mem_of_getElem? (h.numbered.getElem?_idxOf hb), congrArg rename hid⟩
  · intro e he kind ref hlacks
    obtain ⟨b, hb, rfl⟩ := hbatch e he
    exact h.exists_create (h.backs_of_lacks hunknown hb (lacks_of_renamed hlacks))
  · intro e he field f hf
    obtain ⟨b, hb, rfl⟩ := hbatch e he
    obtain ⟨a, -, hresolved⟩ := h.exists_draft hb
    exact (hresolved.references hunknown field f hf).parallel

end Passed

/-! ## Declarations read by the standard accessors -/

/-- The identifier that is filled in is declared, or that of a resource. -/
theorem id_identify_cases {snap : Snapshot} {state : DesiredState} {d : Declaration} {id : String}
    (h : (state.identify snap d).id = some id) :
    d.id = some id ∨ ∃ r ∈ snap.resources, r.id = id := by
  rcases hcovers : snap.covers d.kind with _ | _
  · rw [DesiredState.identify_of_not_covers hcovers] at h
    exact .inl h
  · rw [DesiredState.id_identify hcovers] at h
    rcases Option.or_eq_some_iff.mp h with h | ⟨-, h⟩
    · exact .inl h
    · obtain ⟨r, hr, rfl⟩ := Option.map_eq_some_iff.mp h
      exact .inr ⟨r, (Snapshot.of_named? hr).1, rfl⟩

/-- **For the standard accessors it is enough** that no identifier, name or description is declared
as the text `[unknown]`. -/
theorem nowhereUnknown_standardAccessors {snap : Snapshot} {state : DesiredState} {mode : Mode}
    (hid : ∀ r ∈ snap.resources, r.id ≠ unknownId) (hname : ∀ r ∈ snap.resources, r.name ≠ unknownId)
    (hfield : ∀ r ∈ snap.resources, ∀ path,
      FieldMap.getPath? r.fields path ≠ some (.text unknownId))
    (hdeclared : ∀ d ∈ state.resources,
      d.id ≠ some unknownId ∧ d.name ≠ unknownId ∧ d.description ≠ .value unknownId) :
    (sceneOf snap standardAccessors state mode).NowhereUnknown := by
  refine ⟨hid, hname, hfield, fun d hd path hread => ?_⟩
  obtain ⟨d₀, hd₀, rfl⟩ := List.mem_map.mp hd
  obtain ⟨hdid, hdname, hdtext⟩ := hdeclared d₀ hd₀
  change standardAccessors.read? _ path _ = _ at hread
  rw [read?_standardAccessors] at hread
  split_ifs at hread
  · rcases hlabels : (state.identify snap d₀).labels with _ | _ | labels <;>
      simp [hlabels, Nullable.toField, Value.ofTexts] at hread
  · rw [DesiredState.description_identify] at hread
    rcases htext : d₀.description with _ | _ | text
    · simp [htext, Nullable.toField] at hread
    · simp [htext, Nullable.toField] at hread
    · rw [htext] at hread hdtext
      exact hdtext (congrArg Nullable.value (Value.text.inj (Option.some.inj hread)))
  · obtain ⟨id, hidentified, htext⟩ := Option.map_eq_some_iff.mp hread
    obtain rfl := Value.text.inj htext
    rcases id_identify_cases hidentified with hid' | ⟨r, hr, hrid⟩
    · exact hdid hid'
    · exact hid r hr hrid
  · rw [DesiredState.name_identify] at hread
    exact hdname (Value.text.inj (Option.some.inj hread))

/-! ## Plans -/

/-- **The links of a plan over a snapshot hold**, where nothing that a reference can read is the text
`[unknown]`. -/
theorem wellLinked_of_generatePlan {snap : Snapshot} {accessors : Accessors Declaration}
    {ks : List KindPlanner} {state : DesiredState} {options : PassOptions} {now : Timestamp}
    {plan : Plan} (hunknown : (sceneOf snap accessors state options.mode).NowhereUnknown)
    (h : (generatePlan (.ofSnapshot snap) accessors (ks.map KindPlanner.toPlanner) state options
      now).1 = .ok plan) : plan.WellLinked := by
  obtain ⟨-, s, batch, order, rename, hpassed⟩ := passed_of_generatePlan h
  exact hpassed.wellLinked hunknown

/-- A version of an api that does not exist yet, which points at it twice. -/
def versionedApi : DesiredState where
  resources := [
    { kind := "api", ref := "checkout", name := "Checkout" },
    { kind := "api_version", ref := "v1", name := "v1", parent := some ⟨"api", "checkout"⟩,
      fields := Dict.singleton "api_id" (.reference (.toId "checkout")) }]

theorem wellLinked_versionedApi : ∃ plan,
    (generatePlan (.ofSnapshot {}) standardAccessors
      ([{ kind := "api_version" }, { kind := "api" }].map KindPlanner.toPlanner) versionedApi {}
      ⟨0, 0⟩).1 = .ok plan
    ∧ plan.order = ["1:c:api:checkout", "2:c:api_version:v1"] ∧ plan.WellLinked := by
  obtain ⟨plan, hplan, horder⟩ := exists_ok_of_toOption (f := fun p : Plan => p.order)
    (x := (generatePlan (.ofSnapshot {}) standardAccessors
      ([{ kind := "api_version" }, { kind := "api" }].map KindPlanner.toPlanner) versionedApi {}
      ⟨0, 0⟩).1) (b := ["1:c:api:checkout", "2:c:api_version:v1"]) (by decide +kernel)
  refine ⟨plan, hplan, horder, wellLinked_of_generatePlan ?_ hplan⟩
  exact nowhereUnknown_standardAccessors (by simp) (by simp) (by simp) (by decide)

end Reconcile
