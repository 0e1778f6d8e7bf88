import Reconcile.Proofs.Pass.Stages

/-!
# Proofs/Pass/Protection — protected resources are safe from a plan

In a plan over a snapshot with distinct identifiers no delete targets a protected resource, and an
update of one ends its protection; an update changes the protection exactly where its declaration
states another one than its target has (`Plan.Respects`).  Main fact: `respects_of_generatePlan`.
-/

namespace Reconcile

/-- A change targets an existing resource. -/
def Change.Targets (e : Change) (snap : Snapshot) (r : Resource) : Prop :=
  r ∈ snap.resources ∧ r.kind = e.kind ∧ e.resourceId = some r.id

/-- **An update is planned for a declaration**, with what a planner makes of its differences from
the resource that it matches once its identity is resolved. -/
structure Change.PlannedFor (e : Change) (snap : Snapshot) (state : DesiredState)
    (k : KindPlanner) (d : Declaration) (r : Resource) : Prop where
  declared : d ∈ state.resources
  planner : k.kind = d.kind
  kind : e.kind = d.kind
  ref : e.ref = d.ref
  scope : e.scope = state.scopeOf d
  matched : isMatch (state.identify snap d) r = true
  fields : e.fields = if (k.compare (state.identify snap d) r).1
    then (k.compare (state.identify snap d) r).2 else ∅

/-- **A plan respects protection.** -/
structure Plan.Respects (plan : Plan) (snap : Snapshot) (state : DesiredState)
    (ks : List KindPlanner) : Prop where
  delete : ∀ e ∈ plan.changes, e.action = .delete →
    ∃ r, e.Targets snap r ∧ r.isProtected = false ∧ ∀ r', e.Targets snap r' → r' = r
  update : ∀ e ∈ plan.changes, e.action = .update →
    ∃ r, e.Targets snap r ∧ (∀ r', e.Targets snap r' → r' = r)
      ∧ (r.isProtected = true → e.protection = some (.flip ⟨true, false⟩))
      ∧ ∃ k ∈ ks, ∃ d, e.PlannedFor snap state k d r ∧ ∀ f, e.protection = some (.flip f)
        ↔ ∃ wanted, d.protect = some wanted ∧ wanted ≠ r.isProtected ∧ f = ⟨r.isProtected, wanted⟩

variable {snap : Snapshot} {state : DesiredState} {d : Declaration} {r : Resource} {f : Flip}

/-- Where identifiers are distinct, a change has one target. -/
theorem Change.Targets.eq {e : Change} (h : snap.Distinct) (hr : e.Targets snap r) {r' : Resource}
    (hr' : e.Targets snap r') : r' = r := by
  have hid : some r'.id = some r.id := hr'.2.2.symm.trans hr.2.2
  exact h.eq hr'.1 hr.1 (hr'.2.1.trans hr.2.1.symm) (Option.some.inj hid)

/-! ## Flips -/

/-- **A declaration asks for a flip exactly where it states another protection.** -/
theorem flipFor_eq_some_iff : KindPlanner.flipFor d r = some f
    ↔ ∃ wanted, d.protect = some wanted ∧ wanted ≠ r.isProtected ∧ f = ⟨r.isProtected, wanted⟩ := by
  unfold KindPlanner.flipFor
  rcases hprotect : d.protect with _ | wanted
  · simp [Flip.isChange]
  · rcases wanted with _ | _ <;> rcases r.isProtected with _ | _ <;>
      simp [Flip.isChange, eq_comm]

/-- An update of a protected resource that is permitted and needed ends its protection. -/
theorem flipFor_of_permitted {k : KindPlanner} (hneeds : k.needsChange d r = true)
    (hpermitted : updateViolation? k.kind d.name r.isProtected (KindPlanner.flipFor d r)
      (k.compare d r).1 = none) (hprotected : r.isProtected = true) :
    KindPlanner.flipFor d r = some ⟨true, false⟩ := by
  rcases hflip : KindPlanner.flipFor d r with _ | f
  · simp only [updateViolation?, hprotected, hflip] at hpermitted
    simp only [KindPlanner.needsChange, hflip, Option.isSome_none, Bool.or_false] at hneeds
    simp [hneeds] at hpermitted
  · obtain ⟨wanted, -, hne, rfl⟩ := flipFor_eq_some_iff.mp hflip
    rw [hprotected] at hne ⊢
    rw [Bool.eq_false_iff.mpr hne]

/-! ## Plans -/

section Plans

variable {accessors : Accessors Declaration} {mode : Mode} {ks : List KindPlanner} {s : Sketch}
  {batch plan : Plan} {order : List String} {rename : String → String} {e : Change}

/-- Every delete of a plan targets a resource that is not protected. -/
theorem Passed.delete_target
    (h : Passed (sceneOf snap accessors state mode) ks s batch order rename plan)
    (he : e ∈ plan.changes) (hdelete : e.action = .delete) :
    ∃ r, e.Targets snap r ∧ r.isProtected = false := by
  obtain ⟨k, scope, r, s₁, ht, hfree, hcore⟩ := h.delete_of_mem he hdelete
  obtain ⟨-, hmem, hkind⟩ := Scene.of_orphan_mem ht
  have hkind' : k.kind = e.kind := congrArg Change.kind hcore
  have hid : some r.id = e.resourceId := congrArg Change.resourceId hcore
  exact ⟨r, ⟨hmem, hkind.trans hkind', hid.symm⟩, hfree⟩

/-- Every update of a plan was planned for a declaration and its target. -/
theorem Passed.update_target
    (h : Passed (sceneOf snap accessors state mode) ks s batch order rename plan)
    (he : e ∈ plan.changes) (hupdate : e.action = .update) :
    ∃ k ∈ ks, ∃ d r, e.Targets snap r ∧ e.PlannedFor snap state k d r
      ∧ e.protection = (KindPlanner.flipFor (state.identify snap d) r).map .flip
      ∧ (r.isProtected = true → KindPlanner.flipFor (state.identify snap d) r
        = some ⟨true, false⟩) := by
  obtain ⟨k, scope, d', r, s₁, ht, htarget, hneeds, hpermitted, hcore⟩ := h.update_of_mem he hupdate
  obtain ⟨hk, d, hd, rfl, hplanner, hscope, -⟩ := exists_declaration_of_mem_tasks ht
  obtain ⟨hmem, hrkind, hmatch⟩ := Scene.of_target htarget
  have hkind' : k.kind = e.kind := congrArg Change.kind hcore
  have hid : some r.id = e.resourceId := congrArg Change.resourceId hcore
  have hfields := congrArg Change.fields hcore
  have hprotection := congrArg Change.protection hcore
  refine ⟨k, hk, d, r, ⟨hmem, hrkind.trans hkind', hid.symm⟩, ⟨hd, hplanner,
    hkind'.symm.trans hplanner, ?_, ?_, hmatch, hfields.symm⟩, hprotection.symm,
    flipFor_of_permitted hneeds hpermitted⟩
  · have href : (state.identify snap d).ref = e.ref := congrArg Change.ref hcore
    exact href.symm.trans DesiredState.ref_identify
  · have hscope' : scope = e.scope := congrArg Change.scope hcore
    exact hscope'.symm.trans hscope.symm

/-- **A plan over a snapshot with distinct identifiers respects protection.** -/
theorem respects_of_generatePlan {options : PassOptions} {now : Timestamp}
    (hdistinct : snap.Distinct) (h : (generatePlan (.ofSnapshot snap) accessors
      (ks.map KindPlanner.toPlanner) state options now).1 = .ok plan) :
    plan.Respects snap state ks := by
  obtain ⟨-, s, batch, order, rename, hpassed⟩ := passed_of_generatePlan h
  refine ⟨fun e he hdelete => ?_, fun e he hupdate => ?_⟩
  · obtain ⟨r, htarget, hfree⟩ := hpassed.delete_target he hdelete
    exact ⟨r, htarget, hfree, fun r' hr' => htarget.eq hdistinct hr'⟩
  · obtain ⟨k, hk, d, r, htarget, hplanned, hprotection, hends⟩ :=
      hpassed.update_target he hupdate
    refine ⟨r, htarget, fun r' hr' => htarget.eq hdistinct hr', fun hprotected => ?_, k, hk, d,
      hplanned, fun f => ?_⟩
    · rw [hprotection, hends hprotected]
      rfl
    · have hstated : (state.identify snap d).protect = d.protect := DesiredState.protect_identify
      rw [hprotection, ← hstated, ← flipFor_eq_some_iff]
      simp

end Plans

/-- A protected portal, and one that nobody declares any more. -/
def portals : Snapshot where
  resources := [
    { id := "p1", kind := "portal", name := "Main", labels := managementLabels "default" true },
    { id := "p2", kind := "portal", name := "Old", labels := managementLabels "default" false }]

/-- The protected portal is no longer to be protected. -/
def openedPortal : DesiredState where
  resources := [{ kind := "portal", ref := "main", name := "Main", protect := some false }]

theorem respects_openedPortal : portals.Distinct ∧ ∃ plan,
    (generatePlan (.ofSnapshot portals) standardAccessors
      ([{ kind := "portal" }].map KindPlanner.toPlanner) openedPortal { mode := .sync }
      ⟨0, 0⟩).1 = .ok plan
    ∧ plan.changes.map (fun e => (e.id, e.flip?))
      = [("1:u:portal:main", some ⟨true, false⟩), ("2:d:portal:Old", none)]
    ∧ plan.Respects portals openedPortal [{ kind := "portal" }] := by
  have hdistinct : portals.Distinct := by
    unfold Snapshot.Distinct
    decide
  obtain ⟨plan, hplan, hchanges⟩ := exists_ok_of_toOption
    (f := fun p : Plan => p.changes.map fun e => (e.id, e.flip?))
    (x := (generatePlan (.ofSnapshot portals) standardAccessors
      ([{ kind := "portal" }].map KindPlanner.toPlanner) openedPortal { mode := .sync } ⟨0, 0⟩).1)
    (b := [("1:u:portal:main", some ⟨true, false⟩), ("2:d:portal:Old", none)]) (by decide +kernel)
  exact ⟨hdistinct, plan, hplan, hchanges, respects_of_generatePlan hdistinct hplan⟩

end Reconcile
