import Reconcile.Proofs.Creation
import Reconcile.Proofs.Pass.Aims

/-!
# Proofs/Pass/Mirroring — what is created is left alone later

The task for a declaration is settled where a pass finds a resource that mirrors it
(`settled_of_mirrors`), so the plan of such a pass has no change for the declaration and keeps the
resource (`Plan.LeavesAlone`).  Main fact: `mirrors_of_planCreate` — what a planner of declared
resources creates is such a resource.
-/

namespace Reconcile

/-! ## Later passes -/

/-- **A later pass finds a resource for a declaration**: the document is accepted and has the
declaration, the snapshot has the resource, with no other one of its kind, name and namespace before
it, and declarations of the kind are compared by their fields. -/
structure Resource.FoundFor (r : Resource) (d : Declaration) (snap : Snapshot)
    (state : DesiredState) (ks : List KindPlanner) : Prop where
  accepted : state.Accepted
  distinct : snap.Distinct
  declared : d ∈ state.resources
  mem : r ∈ snap.resources
  first : ∀ x, snap.named? d.kind d.name (state.scopeOf d) = some x → x = r
  compared : ∀ k ∈ ks, k.kind = d.kind → k.compare = compareFields

/-- **A plan leaves a declaration and its resource alone.** -/
structure Plan.LeavesAlone (plan : Plan) (d : Declaration) (r : Resource) : Prop where
  settled : ∀ e ∈ plan.changes, e.action ≠ .delete → e.key ≠ (d.kind, d.ref)
  kept : ∀ e ∈ plan.changes, e.action = .delete → e.remoteKey ≠ (r.kind, some r.id)

section Later

variable {snap : Snapshot} {state : DesiredState} {accessors : Accessors Declaration}
  {mode : Mode} {ks : List KindPlanner} {k : KindPlanner} {d : Declaration} {r : Resource}

/-- What mirrors a declaration without an identifier is what it means. -/
theorem meant?_of_mirrors (hid : d.id = none) (hfound : r.FoundFor d snap state ks)
    (hmirrors : r.Mirrors d (state.scopeOf d)) : state.meant? snap d = some r := by
  rw [DesiredState.meant?, hid]
  rcases hnamed : snap.named? d.kind d.name (state.scopeOf d) with _ | x
  · have hnot := List.find?_eq_none.mp hnamed r hfound.mem
    exact absurd hnot
      (by simp [hmirrors.kind, hmirrors.name, hmirrors.managed, hmirrors.placed])
  · rw [hfound.first x hnamed]

/-- An identifier that is filled in is not compared. -/
theorem compareFields_identify :
    compareFields (state.identify snap d) r = compareFields d r := by
  unfold DesiredState.identify
  split <;> rfl

/-- What mirrors a declaration needs no change. -/
theorem needsChange_of_mirrors {scope : String} (hcompare : k.compare = compareFields)
    (hmirrors : r.Mirrors d scope) : k.needsChange (state.identify snap d) r = false := by
  refine eq_false_of_ne_true fun hneeds => ?_
  rcases KindPlanner.needsChange_iff.mp hneeds with hdiffers | ⟨wanted, hwanted, hne⟩
  · rw [hcompare, compareFields_identify, hmirrors.compared] at hdiffers
    exact absurd hdiffers (by simp)
  · rw [DesiredState.protect_identify] at hwanted
    rw [hmirrors.guarded, Declaration.isProtected, hwanted] at hne
    exact hne rfl

/-- **The task for a declaration that is mirrored is settled**, whatever has been drafted. -/
theorem settled_of_mirrors (hid : d.id = none) (hfound : r.FoundFor d snap state ks)
    (hmirrors : r.Mirrors d (state.scopeOf d)) (hk : k ∈ ks) (hkind : k.kind = d.kind)
    (hcovers : snap.covers d.kind = true) (s : Sketch) :
    (sceneOf snap accessors state mode).verdict s
      (.declared k (state.scopeOf d) (state.identify snap d)) = .settled := by
  rw [Scene.verdict]
  split
  · rfl
  · rw [target_sceneOf hfound.accepted hfound.distinct hfound.declared hcovers hkind,
      meant?_of_mirrors hid hfound hmirrors]
    dsimp only [Scene.updateVerdict]
    rw [needsChange_of_mirrors (hfound.compared k hk hkind) hmirrors, if_neg Bool.false_ne_true]

/-- **A later pass that finds what mirrors a declaration leaves both alone**, in either mode. -/
theorem leavesAlone_of_generatePlan {options : PassOptions} {now : Timestamp} {plan : Plan}
    (hid : d.id = none) (hfound : r.FoundFor d snap state ks)
    (hmirrors : r.Mirrors d (state.scopeOf d))
    (h : (generatePlan (.ofSnapshot snap) accessors (ks.map KindPlanner.toPlanner) state options
      now).1 = .ok plan) : plan.LeavesAlone d r := by
  obtain ⟨-, s, batch, order, rename, hpassed⟩ := passed_of_generatePlan h
  refine ⟨fun e he hkept hkey => ?_, fun e he hdelete hremote => ?_⟩
  · obtain ⟨t, ht, s₁, b, hplanned, hcore⟩ := hpassed.planned_of_mem he
    have haction : b.core.action = e.core.action := congrArg Change.action hcore
    have hsame : b.core.key = e.core.key := congrArg Change.key hcore
    have htkey : t.key = (d.kind, d.ref) :=
      (Scene.key_of_planned hplanned).symm.trans (hsame.trans hkey)
    rcases t with ⟨k, scope, d'⟩ | ⟨k, scope, r'⟩
    · -- the task is for the declaration itself, since no two have one kind and reference
      obtain ⟨hk, d₀, hd₀, rfl, hkind, rfl, hcovers⟩ := exists_declaration_of_mem_tasks ht
      obtain ⟨htkind, htref⟩ := Prod.mk.inj htkey
      rw [DesiredState.ref_identify] at htref
      obtain rfl : d₀ = d := List.inj_on_of_nodup_map hfound.accepted.nodup hd₀ hfound.declared
        (Prod.ext (hkind.symm.trans htkind) htref)
      rw [settled_of_mirrors hid hfound hmirrors hk hkind hcovers] at hplanned
      exact absurd hplanned (by simp)
    · have hdelete : b.action = .delete := Scene.action_of_planned_orphan rfl hplanned
      exact hkept (haction.symm.trans hdelete)
  · obtain ⟨r', habandoned, hkey⟩ := hpassed.delete_abandoned hfound.accepted he hdelete
    obtain ⟨hkind, hrid⟩ := Prod.mk.inj (hkey.symm.trans hremote)
    have hclaimed := claimedId?_of_meant? (meant?_of_mirrors hid hfound hmirrors)
    exact habandoned.unclaimed d hfound.declared (hmirrors.kind.symm.trans hkind.symm)
      (hclaimed.trans hrid.symm)

end Later

/-! ## Planned creates -/

section Planned

variable {k : KindPlanner} {a : Assignment} {d : Declaration}

/-- A create is built from its fields, if none that is required is missing. -/
theorem CreateRequest.exists_build {q : CreateRequest}
    (h : missingField? q.required q.fields = none) (issued : Issued) :
    ∃ e, q.build issued = .ok (e, issued + 1) ∧ e.action = .create ∧ e.fields = q.fields := by
  rw [CreateRequest.build, checkRequired, h]
  exact ⟨_, rfl, rfl, rfl⟩

/-- **Planning a create adds it to the draft**, if no required field is missing. -/
theorem run_planCreate
    (hrequired : missingField? k.required (createFields a.accessors k.kind a.scope d) = none)
    (dr : Draft) : ∃ e dr', (k.planCreate a d).run.run dr = (.ok (), dr')
      ∧ dr'.plan.changes = dr.plan.changes ++ [e] ∧ e.action = .create
      ∧ e.fields = createFields a.accessors k.kind a.scope d := by
  obtain ⟨q, hrun, hq, hfields⟩ : ∃ q : CreateRequest,
      (k.planCreate a d).run.run dr = (Drafting.addOrFail q.build).run.run dr
      ∧ q.required = k.required ∧ q.fields = createFields a.accessors k.kind a.scope d :=
    ⟨{  kind := k.kind
        ref := d.ref
        scope := a.scope
        fields := createFields a.accessors k.kind a.scope d
        required := k.required
        protect := some d.isProtected
        parent := d.parent.map (parentOf a.desired)
        dependsOn := _ }, rfl, rfl, rfl⟩
  rw [← hq, ← hfields] at hrequired
  obtain ⟨e, hbuild, hcreate, hsame⟩ := CreateRequest.exists_build hrequired dr.issued
  have hadd : (Drafting.addOrFail q.build).run.run dr
      = (.ok (), { dr with plan := dr.plan.addChange e, issued := dr.issued + 1 }) := by
    simp only [Drafting.addOrFail, ExceptT.run, StateT.run, hbuild]
  exact ⟨e, _, hrun.trans hadd, rfl, hcreate, hsame.trans hfields⟩

/-- **Creates and comparisons agree**: a planner of declared resources plans a create, if no
required field is missing, and a resource with its fields mirrors the declaration, so that later
passes leave it alone. -/
theorem mirrors_of_planCreate (haccessors : a.accessors = standardAccessors) (hid : d.id = none)
    (hfields : ∀ key ∈ standardFields, d.fields.get? key = none)
    (hrequired : missingField? k.required (createFields a.accessors k.kind a.scope d) = none)
    (dr : Draft) : ∃ e dr', (k.planCreate a d).run.run dr = (.ok (), dr')
      ∧ dr'.plan.changes = dr.plan.changes ++ [e] ∧ e.action = .create
      ∧ ∀ id, (Resource.ofFields id d.kind e.fields).Mirrors d a.scope
        ∧ ∀ snap state accessors ks options now plan,
          (Resource.ofFields id d.kind e.fields).FoundFor d snap state ks →
          state.scopeOf d = a.scope →
          (generatePlan (.ofSnapshot snap) accessors (ks.map KindPlanner.toPlanner) state options
            now).1 = .ok plan →
          plan.LeavesAlone d (Resource.ofFields id d.kind e.fields) := by
  obtain ⟨e, dr', hrun, hchanges, hcreate, hsame⟩ := run_planCreate hrequired dr
  refine ⟨e, dr', hrun, hchanges, hcreate, fun id => ?_⟩
  have hmirrors : (Resource.ofFields id d.kind e.fields).Mirrors d a.scope := by
    rw [hsame, haccessors]
    exact mirrors_created hfields id
  refine ⟨hmirrors, fun snap state accessors ks options now plan hfound hscope h => ?_⟩
  exact leavesAlone_of_generatePlan hid hfound (hscope ▸ hmirrors) h

end Planned

/-- A protected api in a namespace, of which the user says that it is not, with a description that is
cleared and fields of all sorts. -/
def guardedOrders : Declaration where
  kind := "api"
  ref := "orders"
  name := "Orders"
  scope := some "finance"
  protect := some true
  description := .null
  labels := .value (Dict.ofList [("DECLPLAN-protected", "false"), ("team", "core")])
  fields := Dict.ofList [("limits", .map [("burst", .null), ("daily", .text "9")]),
    ("portal_id", .text "docs"), ("version", .text "2.0")]

/-- The document with the api. -/
def guardedState : DesiredState where
  resources := [guardedOrders]

/-- What a planner is told where there is nothing yet. -/
def guardedAssignment : Assignment where
  provider := .ofSnapshot {}
  accessors := standardAccessors
  desired := guardedState
  scope := "finance"
  mode := .apply

/-- What a later pass is told that sees the api. -/
def guardedSnapshot (fields : FieldMap) : Snapshot where
  resources := [.ofFields "a9" "api" fields]

theorem accepted_guardedState : guardedState.Accepted := by decide +kernel

theorem foundFor_guardedSnapshot (fields : FieldMap) :
    (Resource.ofFields "a9" "api" fields).FoundFor guardedOrders (guardedSnapshot fields)
      guardedState [{ kind := "api" }] where
  accepted := accepted_guardedState
  distinct := List.nodup_singleton _
  declared := List.mem_singleton_self _
  mem := List.mem_singleton_self _
  first x hx := List.mem_singleton.mp (Snapshot.of_named? hx).1
  compared k hk _ := by
    obtain rfl := List.mem_singleton.mp hk
    rfl

theorem mirrors_guardedOrders : guardedOrders.id = none
    ∧ (∀ key ∈ standardFields, guardedOrders.fields.get? key = none)
    ∧ ∃ e dr', (KindPlanner.planCreate { kind := "api" } guardedAssignment guardedOrders).run.run
        { plan := .start .apply Plan.defaultGenerator ⟨0, 0⟩ } = (.ok (), dr')
      ∧ dr'.plan.changes = [e]
      ∧ e.fields.keys = ["description", "labels", "limits", "name", "portal_id", "version"]
      ∧ (Resource.ofFields "a9" "api" e.fields).Mirrors guardedOrders "finance"
      ∧ ∃ plan, (generatePlan (.ofSnapshot (guardedSnapshot e.fields)) standardAccessors
          ([{ kind := "api" }].map KindPlanner.toPlanner) guardedState { mode := .sync } ⟨0, 0⟩).1
          = .ok plan
        ∧ plan.changes = []
        ∧ plan.LeavesAlone guardedOrders (Resource.ofFields "a9" "api" e.fields) := by
  have hid : guardedOrders.id = none := rfl
  have hfields : ∀ key ∈ standardFields, guardedOrders.fields.get? key = none := by decide
  obtain ⟨e, dr', hrun, hchanges, -, h⟩ := mirrors_of_planCreate (k := { kind := "api" })
    (a := guardedAssignment) rfl hid hfields (by decide)
    { plan := .start .apply Plan.defaultGenerator ⟨0, 0⟩ }
  have hsame : e.fields = createFields standardAccessors "api" "finance" guardedOrders := by
    have hdraft := congrArg (fun x : Except Failure Unit × Draft => x.2.plan.changes.map (·.fields))
      hrun
    rw [hchanges] at hdraft
    exact (List.singleton_inj.mp hdraft).symm
  obtain ⟨hmirrors, hlater⟩ := h "a9"
  refine ⟨hid, hfields, e, dr', hrun, hchanges, ?_, hmirrors, ?_⟩
  · rw [hsame]
    decide
  obtain ⟨plan, hplan, hempty⟩ := exists_ok_of_toOption
    (f := fun p : Plan => p.changes.length)
    (x := (generatePlan (.ofSnapshot (guardedSnapshot
        (createFields standardAccessors "api" "finance" guardedOrders))) standardAccessors
      ([{ kind := "api" }].map KindPlanner.toPlanner) guardedState { mode := .sync } ⟨0, 0⟩).1)
    (b := 0) (by decide +kernel)
  rw [← hsame] at hplan
  exact ⟨plan, hplan, List.eq_nil_of_length_eq_zero hempty,
    hlater _ _ _ _ _ _ plan (foundFor_guardedSnapshot e.fields) rfl hplan⟩

end Reconcile
