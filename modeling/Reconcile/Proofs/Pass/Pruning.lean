import Reconcile.Proofs.Pass.Matching

/-!
# Proofs/Pass/Pruning — what a plan deletes

A resource is abandoned when a pass goes through its namespace and no declaration of its kind claims
its identifier, be it declared or found by name (`Resource.Abandoned`).  Main fact:
`prunes_of_generatePlan` — a plan in sync deletes every abandoned resource once and nothing else, a
plan that only applies deletes nothing, and no plan updates what it deletes (`Plan.Prunes`).

A task for a declaration never deletes, and a task for an orphan of a lawful run always does
(`Scene.deletes_of_run`); what a planner takes for orphans in its namespace is what is abandoned
there, since a declaration that matches by name alone has found nothing (`mem_orphans_sceneOf`).
-/

namespace Reconcile

/-! ## What is abandoned, and what is deleted -/

/-- **The identifier that a declaration claims**: the declared one, or that of the managed resource
with its kind, name and namespace. -/
def DesiredState.claimedId? (s : DesiredState) (snap : Snapshot) (d : Declaration) :
    Option String :=
  d.id.or ((snap.named? d.kind d.name (s.scopeOf d)).map (·.id))

/-- **A managed resource that no declaration claims**, of a kind that is taken care of and known, in
a namespace of the declarations or a default one. -/
structure Resource.Abandoned (r : Resource) (snap : Snapshot) (state : DesiredState)
    (ks : List KindPlanner) : Prop where
  mem : r ∈ snap.resources
  managed : r.isManaged = true
  handled : ∃ k ∈ ks, k.kind = r.kind
  covered : snap.covers r.kind = true
  planned : r.scope ∈ state.scopes ∨ r.scope ∈ state.defaultScopes
  unclaimed : ∀ d ∈ state.resources, d.kind = r.kind → state.claimedId? snap d ≠ some r.id

/-- The kind and the identifier of the resource that a change is about. -/
def Change.remoteKey (e : Change) : String × Option String := (e.kind, e.resourceId)

/-- The resources that changes delete. -/
def deletesOf (changes : List Change) : List (String × Option String) :=
  (changes.filter fun e => e.action = .delete).map Change.remoteKey

/-- **What a plan deletes.** -/
structure Plan.Prunes (plan : Plan) (snap : Snapshot) (state : DesiredState)
    (ks : List KindPlanner) (mode : Mode) : Prop where
  once : (deletesOf plan.changes).Nodup
  sync : mode = .sync → ∀ key, key ∈ deletesOf plan.changes
    ↔ ∃ r : Resource, r.Abandoned snap state ks ∧ key = (r.kind, some r.id)
  apply : mode = .apply → deletesOf plan.changes = []
  update : ∀ e ∈ plan.changes, e.action = .update → e.remoteKey ∉ deletesOf plan.changes

variable {snap : Snapshot} {state : DesiredState} {accessors : Accessors Declaration}
  {mode : Mode} {ks : List KindPlanner} {k : KindPlanner} {d : Declaration} {r : Resource}

theorem deletesOf_append (as bs : List Change) :
    deletesOf (as ++ bs) = deletesOf as ++ deletesOf bs := by
  simp [deletesOf]

theorem deletesOf_singleton (e : Change) :
    deletesOf [e] = if e.action = .delete then [e.remoteKey] else [] := by
  unfold deletesOf
  split <;> simp_all

theorem deletesOf_map_core (changes : List Change) :
    deletesOf (changes.map Change.core) = deletesOf changes := by
  simp only [deletesOf, List.filter_map, List.map_map]
  rfl

/-! ## What tasks delete -/

/-- The resource that a task deletes. -/
def Task.deleted? : Task → Option (String × Option String)
  | .declared _ _ _ => none
  | .orphan k _ r => some (k.kind, some r.id)

namespace Scene

variable {c : Scene} {s s' : Sketch} {t : Task} {ts : List Task} {scope : String}

/-- **A lawful step deletes the orphan that it is about**, and nothing else. -/
theorem deletes_of_step (h : c.step s t = .ok s') (hlawful : s'.violations = []) :
    deletesOf s'.changes = deletesOf s.changes ++ t.deleted?.toList := by
  rcases step_cases h with ⟨hsettled, rfl⟩ | ⟨v, -, rfl⟩ | ⟨e, hplanned, rfl⟩
  · cases t with
    | declared k scope d => exact (List.append_nil _).symm
    | orphan k scope r => exact absurd hsettled (Verdict.unless_ne_settled (by simp))
  · exact absurd hlawful (by simp)
  · rw [deletesOf_append, deletesOf_singleton]
    rcases planned_cases hplanned with ⟨k, scope, d, r, rfl, -, -, -, rfl⟩
      | ⟨k, scope, d, rfl, -, rfl⟩ | ⟨k, scope, r, rfl, -, rfl⟩ <;> rfl

/-- **A lawful run deletes the orphans that its tasks are about**, one after the other. -/
theorem deletes_of_run (h : c.run ts s = .ok s') (hlawful : s'.violations = []) :
    deletesOf s'.changes = deletesOf s.changes ++ ts.filterMap Task.deleted? := by
  induction ts generalizing s with
  | nil =>
    obtain rfl := Except.ok.inj h
    simp
  | cons t rest ih =>
    obtain ⟨s₁, hstep, hrest⟩ := run_cons_ok h
    rw [ih hrest, deletes_of_step hstep (violations_run hrest hlawful), List.append_assoc,
      List.filterMap_cons]
    cases t.deleted? <;> rfl

/-- The orphans of a planner in a namespace. -/
def orphansOf (c : Scene) (scope : String) (k : KindPlanner) : List Resource :=
  k.orphans (c.assignment scope) (c.desired.inScope k.kind scope)
    (c.snapshot.managedIn k.kind scope)

/-- What a planner deletes in a namespace: its orphans, where it deletes at all. -/
theorem filterMap_deleted?_tasksOf (c : Scene) (scope : String) (k : KindPlanner) :
    (c.tasksOf scope k).filterMap Task.deleted?
      = if c.snapshot.covers k.kind ∧ c.mode = .sync then
          (c.orphansOf scope k).map fun r => (k.kind, some r.id)
        else [] := by
  have hdeclared : ∀ ds : List Declaration,
      (ds.map (Task.declared k scope)).filterMap Task.deleted? = [] := by
    intro ds
    simp [List.filterMap_map, Function.comp_def, Task.deleted?]
  have horphans : ∀ rs : List Resource, (rs.map (Task.orphan k scope)).filterMap Task.deleted?
      = rs.map fun r => (k.kind, some r.id) := by
    intro rs
    simp [List.filterMap_map, Function.comp_def, Task.deleted?]
  unfold tasksOf
  split
  · next hcovers =>
    rw [List.filterMap_append, hdeclared]
    rcases hmode : c.mode with _ | _
    · simp
    · simp [hcovers, horphans, orphansOf]
  · next hcovers => simp [hcovers]

end Scene

/-! ## Orphans are what is abandoned -/

theorem id_identify_eq_claimedId? (h : snap.covers d.kind = true) :
    (state.identify snap d).id = state.claimedId? snap d :=
  DesiredState.id_identify h

/-- **A planner takes for orphans the managed resources of its namespace that no declaration
claims.** -/
theorem mem_orphans_sceneOf {scope : String} (hscope : scope ≠ wildcard)
    (hcovers : snap.covers k.kind = true) :
    r ∈ (sceneOf snap accessors state mode).orphansOf scope k
      ↔ r ∈ snap.managedIn k.kind scope
        ∧ ∀ d ∈ state.resources, d.kind = k.kind → state.claimedId? snap d ≠ some r.id := by
  have hclaim : k.isClaimed (state.identified snap) r = false
      ↔ ∀ d ∈ state.resources, d.kind = k.kind → state.claimedId? snap d ≠ some r.id := by
    simp only [KindPlanner.isClaimed, DesiredState.identified, List.any_map, List.any_eq_false,
      Function.comp_apply, DesiredState.kind_identify, Bool.and_eq_true, beq_iff_eq, not_and]
    refine forall₂_congr fun d _ => forall_congr' fun hkind => ?_
    rw [id_identify_eq_claimedId? (hkind ▸ hcovers)]
  have horphan : r ∈ (sceneOf snap accessors state mode).orphansOf scope k
      ↔ r ∈ snap.managedIn k.kind scope ∧ k.isClaimed (state.identified snap) r = false
        ∧ (((state.inScope k.kind scope).map (state.identify snap)).any fun d => isMatch d r)
          = false := by
    rw [← DesiredState.inScope_identified]
    simp [Scene.orphansOf, sceneOf, KindPlanner.orphans, Scene.assignment, List.mem_filter]
  rw [horphan, hclaim]
  refine and_congr_right fun hmanaged => and_iff_left_of_imp fun hunclaimed => ?_
  obtain ⟨hmem, hkind, hismanaged, hin⟩ := (Snapshot.mem_managedIn hscope).mp hmanaged
  rw [List.any_map, List.any_eq_false]
  intro d hd hmatch
  obtain ⟨hdeclared, hdkind, hdscope⟩ := state.mem_inScope.mp hd
  have hid : (state.identify snap d).id = state.claimedId? snap d :=
    id_identify_eq_claimedId? (hdkind ▸ hcovers)
  rw [Function.comp_apply, isMatch, hid] at hmatch
  rcases hclaimed : state.claimedId? snap d with _ | id <;> rw [hclaimed] at hmatch
  · -- a declaration that claims nothing has found no resource with its name
    have hnamed : snap.named? d.kind d.name (state.scopeOf d) = none := by
      have hor := Option.or_eq_none_iff.mp hclaimed
      exact Option.map_eq_none_iff.mp hor.2
    have hname : r.name = d.name := by simpa using hmatch
    have hnot := List.find?_eq_none.mp hnamed r hmem
    exact hnot (by simp [hkind, hdkind, hismanaged, hname, hin, hdscope])
  · have hr : r.id = id := by simpa using hmatch
    exact hunclaimed d hdeclared hdkind (hr ▸ hclaimed)

/-! ## The deletes of a pass -/

/-- What a planner takes for an orphan in a namespace of a pass in sync is abandoned there. -/
theorem abandoned_of_mem_orphansOf (haccepted : state.Accepted) {scope : String}
    (hscope : scope ∈ planningScopes state .sync) (hk : k ∈ ks)
    (hcovers : snap.covers k.kind = true)
    (hr : r ∈ (sceneOf snap accessors state mode).orphansOf scope k) :
    r.Abandoned snap state ks ∧ r.kind = k.kind ∧ r.scope = scope := by
  have hwild := haccepted.planningScopes_ne_wildcard hscope
  obtain ⟨hmanaged, hunclaimed⟩ := (mem_orphans_sceneOf hwild hcovers).mp hr
  obtain ⟨hmem, hkind, hismanaged, rfl⟩ := (Snapshot.mem_managedIn hwild).mp hmanaged
  exact ⟨⟨hmem, hismanaged, ⟨k, hk, hkind.symm⟩, hkind ▸ hcovers, mem_planningScopes_sync.mp hscope,
    hkind ▸ hunclaimed⟩, hkind, rfl⟩

/-- What is abandoned is an orphan for the planner of its kind in its namespace. -/
theorem mem_orphansOf_of_abandoned (haccepted : state.Accepted) (hr : r.Abandoned snap state ks) :
    ∃ k ∈ ks, k.kind = r.kind ∧ snap.covers k.kind = true ∧ r.scope ∈ planningScopes state .sync
      ∧ r ∈ (sceneOf snap accessors state mode).orphansOf r.scope k := by
  obtain ⟨k, hk, hkind⟩ := hr.handled
  have hplanned : r.scope ∈ planningScopes state .sync := mem_planningScopes_sync.mpr hr.planned
  have hwild := haccepted.planningScopes_ne_wildcard hplanned
  have hcovers : snap.covers k.kind = true := hkind ▸ hr.covered
  refine ⟨k, hk, hkind, hcovers, hplanned, (mem_orphans_sceneOf hwild hcovers).mpr ⟨?_, ?_⟩⟩
  · exact (Snapshot.mem_managedIn hwild).mpr ⟨hr.mem, hkind.symm, hr.managed, rfl⟩
  · exact fun d hd hdkind => hr.unclaimed d hd (hdkind.trans hkind)

/-- **The tasks of a pass in sync delete what is abandoned.** -/
theorem mem_deleted_tasks (haccepted : state.Accepted) (key : String × Option String) :
    key ∈ ((sceneOf snap accessors state .sync).tasks ks).filterMap Task.deleted?
      ↔ ∃ r : Resource, r.Abandoned snap state ks ∧ key = (r.kind, some r.id) := by
  have hscopes : planningScopes (state.identified snap) .sync = planningScopes state .sync :=
    DesiredState.planningScopes_identified .sync
  simp only [Scene.tasks, List.filterMap_flatMap, Scene.filterMap_deleted?_tasksOf,
    List.mem_flatMap]
  constructor
  · rintro ⟨scope, hscope, k, hk, hkey⟩
    split at hkey
    · next hsync =>
      obtain ⟨r, hr, rfl⟩ := List.mem_map.mp hkey
      obtain ⟨habandoned, hkind, -⟩ :=
        abandoned_of_mem_orphansOf haccepted (hscopes ▸ hscope) hk hsync.1 hr
      exact ⟨r, habandoned, by rw [hkind]⟩
    · exact absurd hkey List.not_mem_nil
  · rintro ⟨r, hr, rfl⟩
    obtain ⟨k, hk, hkind, hcovers, hscope, horphan⟩ :=
      mem_orphansOf_of_abandoned haccepted hr
    refine ⟨r.scope, hscopes.symm ▸ hscope, k, hk, ?_⟩
    rw [if_pos ⟨hcovers, rfl⟩, ← hkind]
    exact List.mem_map_of_mem horphan

/-- **No resource is deleted by two tasks of a pass**, where identifiers are distinct and no two
planners share a kind. -/
theorem nodup_deleted_tasks (haccepted : state.Accepted) (hdistinct : snap.Distinct)
    (hkinds : (ks.map KindPlanner.kind).Nodup) :
    (((sceneOf snap accessors state mode).tasks ks).filterMap Task.deleted?).Nodup := by
  have hof : ∀ scope k key, key ∈ ((sceneOf snap accessors state mode).tasksOf scope k).filterMap
      Task.deleted? → ∃ r ∈ snap.managedIn k.kind scope, key = (k.kind, some r.id) := by
    intro scope k key hkey
    rw [Scene.filterMap_deleted?_tasksOf] at hkey
    split at hkey
    · obtain ⟨r, hr, rfl⟩ := List.mem_map.mp hkey
      exact ⟨r, (List.mem_filter.mp hr).1, rfl⟩
    · exact absurd hkey List.not_mem_nil
  simp only [Scene.tasks, List.filterMap_flatMap]
  refine List.nodup_flatMap.mpr ⟨fun scope _ => List.nodup_flatMap.mpr ⟨fun k _ => ?_, ?_⟩, ?_⟩
  · rw [Scene.filterMap_deleted?_tasksOf]
    split
    · -- one planner in one namespace goes through resources of one kind, each once
      have hids : ((snap.managedIn k.kind scope).map fun r => (r.kind, r.id)).Nodup :=
        hdistinct.sublist (List.filter_sublist.map _)
      refine List.Nodup.sublist (List.filter_sublist.map _) (List.pairwise_map.mpr ?_)
      refine (List.pairwise_map.mp hids).imp_of_mem fun {r r'} hr hr' hne heq => hne ?_
      have hkind := (Snapshot.of_mem_managedIn hr).2.trans (Snapshot.of_mem_managedIn hr').2.symm
      exact Prod.ext hkind (Option.some.inj (congrArg Prod.snd heq))
    · exact List.nodup_nil
  · -- planners of two kinds delete nothing in common
    refine (List.pairwise_map.mp hkinds).imp fun {k k'} hne key hkey hkey' => hne ?_
    obtain ⟨r, -, rfl⟩ := hof scope k key hkey
    obtain ⟨r', -, heq⟩ := hof scope k' _ hkey'
    exact congrArg Prod.fst heq
  · -- a resource is in one namespace
    refine (nodup_planningScopes _ mode).imp_of_mem
      fun {scope scope'} hscope hscope' hne key hkey hkey' => ?_
    obtain ⟨k, -, hkey⟩ := List.mem_flatMap.mp hkey
    obtain ⟨k', -, hkey'⟩ := List.mem_flatMap.mp hkey'
    obtain ⟨r, hr, rfl⟩ := hof scope k key hkey
    obtain ⟨r', hr', heq⟩ := hof scope' k' _ hkey'
    have hplanned : ∀ scope ∈ planningScopes (state.identified snap) mode, scope ≠ wildcard := by
      intro scope hscope
      rw [DesiredState.planningScopes_identified] at hscope
      exact haccepted.planningScopes_ne_wildcard hscope
    obtain ⟨hmem, hkind, -, hin⟩ := (Snapshot.mem_managedIn (hplanned scope hscope)).mp hr
    obtain ⟨hmem', hkind', -, hin'⟩ := (Snapshot.mem_managedIn (hplanned scope' hscope')).mp hr'
    have hsame : r = r' := hdistinct.eq hmem hmem'
      (hkind.trans ((congrArg Prod.fst heq).trans hkind'.symm))
      (Option.some.inj (congrArg Prod.snd heq))
    exact hne (hin.symm.trans (hsame ▸ hin'))

/-- What a declaration means is what it claims. -/
theorem claimedId?_of_meant? (h : state.meant? snap d = some r) :
    state.claimedId? snap d = some r.id := by
  unfold DesiredState.meant? at h
  unfold DesiredState.claimedId?
  rcases hid : d.id with _ | id <;> rw [hid] at h <;> dsimp only at h
  · rw [Option.none_or, h, Option.map_some]
  · rw [Option.some_or, (Snapshot.of_find? h).2.2]

section Plans

variable {s : Sketch} {batch plan : Plan} {order : List String} {rename : String → String}
  {e : Change}

theorem Passed.perm_deletes {c : Scene} (h : Passed c ks s batch order rename plan) :
    (deletesOf plan.changes).Perm ((c.tasks ks).filterMap Task.deleted?) := by
  have hrun := Scene.deletes_of_run h.run h.lawful
  have hempty : deletesOf ({} : Sketch).changes = [] := rfl
  rw [hempty, List.nil_append] at hrun
  rw [← hrun, ← deletesOf_map_core plan.changes, ← deletesOf_map_core s.changes]
  exact (h.perm_core.filter _).map _

/-- An update is about what a declaration with its kind and reference claims. -/
theorem Passed.update_claimed (haccepted : state.Accepted) (hdistinct : snap.Distinct)
    (h : Passed (sceneOf snap accessors state mode) ks s batch order rename plan)
    (he : e ∈ plan.changes) (hupdate : e.action = .update) :
    ∃ d ∈ state.resources, d.ref = e.ref ∧ ∃ id, state.claimedId? snap d = some id
      ∧ e.remoteKey = (d.kind, some id) := by
  obtain ⟨k, scope, d', r, s₁, ht, htarget, -, -, hcore⟩ := h.update_of_mem he hupdate
  have href : d'.ref = e.ref := congrArg Change.ref hcore
  have hkey : (k.kind, some r.id) = e.remoteKey := congrArg Change.remoteKey hcore
  obtain ⟨-, d, hd, rfl, hkind, rfl, hcovers⟩ := exists_declaration_of_mem_tasks ht
  rw [target_sceneOf haccepted hdistinct hd hcovers hkind] at htarget
  exact ⟨d, hd, DesiredState.ref_identify.symm.trans href, r.id, claimedId?_of_meant? htarget,
    hkind ▸ hkey.symm⟩

/-- **A plan prunes what is abandoned**, over a snapshot with distinct identifiers and for an
accepted document. -/
theorem prunes_of_generatePlan {options : PassOptions} {now : Timestamp}
    (haccepted : state.Accepted) (hdistinct : snap.Distinct)
    (hkinds : (ks.map KindPlanner.kind).Nodup)
    (h : (generatePlan (.ofSnapshot snap) accessors (ks.map KindPlanner.toPlanner) state options
      now).1 = .ok plan) : plan.Prunes snap state ks options.mode := by
  obtain ⟨-, s, batch, order, rename, hpassed⟩ := passed_of_generatePlan h
  have hperm := hpassed.perm_deletes
  have hsync : options.mode = .sync → ∀ key, key ∈ deletesOf plan.changes
      ↔ ∃ r : Resource, r.Abandoned snap state ks ∧ key = (r.kind, some r.id) := by
    intro hmode key
    rw [hmode] at hperm
    exact hperm.mem_iff.trans (mem_deleted_tasks haccepted key)
  have happly : options.mode = .apply → deletesOf plan.changes = [] := by
    intro hmode
    rw [hmode] at hperm
    refine List.perm_nil.mp (hperm.trans (List.Perm.of_eq ?_))
    simp [Scene.tasks, List.filterMap_flatMap, Scene.filterMap_deleted?_tasksOf, sceneOf]
  refine ⟨?_, hsync, happly, fun e he hupdate hdeleted => ?_⟩
  · exact hperm.nodup_iff.mpr (nodup_deleted_tasks haccepted hdistinct hkinds)
  · obtain ⟨d, hd, -, id, hclaimed, hkey⟩ := hpassed.update_claimed haccepted hdistinct he hupdate
    cases hmode : options.mode with
    | apply => exact absurd (happly hmode ▸ hdeleted) List.not_mem_nil
    | sync =>
      obtain ⟨r, hr, heq⟩ := (hsync hmode _).mp hdeleted
      obtain ⟨hkind, hid⟩ := Prod.mk.inj (hkey.symm.trans heq)
      exact hr.unclaimed d hd hkind (hclaimed.trans hid)

end Plans

/-- Apis in three namespaces: one that is taken over by its identifier, one with the name of a
declaration in another namespace, two that nobody declares, and one that nobody manages. -/
def sharedApis : Snapshot where
  resources := [
    { id := "a1", kind := "api", name := "Orders", labels := managementLabels "default" false },
    { id := "a2", kind := "api", name := "Billing", labels := managementLabels "finance" false },
    { id := "a3", kind := "api", name := "Billing", labels := managementLabels "default" false },
    { id := "a4", kind := "api", name := "Ledger", labels := managementLabels "legacy" false },
    { id := "a5", kind := "api", name := "Audit", labels := managementLabels "elsewhere" false },
    { id := "a6", kind := "api", name := "Manual" }]

/-- Two declared apis, one of them taken over from another namespace. -/
def trimmedApis : DesiredState where
  defaults := { scopes := ["legacy"] }
  resources := [
    { kind := "api", ref := "orders", name := "Purchases", id := some "a1", scope := some "finance" },
    { kind := "api", ref := "billing", name := "Billing", scope := some "finance" }]

theorem prunes_trimmedApis : trimmedApis.Accepted ∧ sharedApis.Distinct ∧ ∃ plan,
    (generatePlan (.ofSnapshot sharedApis) standardAccessors
      ([{ kind := "portal" }, { kind := "api" }].map KindPlanner.toPlanner) trimmedApis
      { mode := .sync } ⟨0, 0⟩).1 = .ok plan
    ∧ deletesOf plan.changes = [("api", some "a3"), ("api", some "a4")]
    ∧ plan.Prunes sharedApis trimmedApis [{ kind := "portal" }, { kind := "api" }] .sync := by
  have haccepted : trimmedApis.Accepted := by
    unfold DesiredState.Accepted
    decide +kernel
  have hdistinct : sharedApis.Distinct := by
    unfold Snapshot.Distinct
    decide
  obtain ⟨plan, hplan, hdeletes⟩ := exists_ok_of_toOption
    (f := fun p : Plan => deletesOf p.changes)
    (x := (generatePlan (.ofSnapshot sharedApis) standardAccessors
      ([{ kind := "portal" }, { kind := "api" }].map KindPlanner.toPlanner) trimmedApis
      { mode := .sync } ⟨0, 0⟩).1)
    (b := [("api", some "a3"), ("api", some "a4")]) (by decide +kernel)
  exact ⟨haccepted, hdistinct, plan, hplan, hdeletes,
    prunes_of_generatePlan haccepted hdistinct (by simp) hplan⟩

end Reconcile
