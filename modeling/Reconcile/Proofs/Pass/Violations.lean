import Reconcile.Proofs.Drafting.Modes
import Reconcile.Proofs.Drafting.Violations
import Reconcile.Proofs.Pass.Pruning

/-!
# Proofs/Pass/Violations — every violation is reported

A pass that drafts to the end reports all that its tasks may not do, before it looks at references or
circles (`ReportsViolations`, `reportsViolations_of_draftOf?`).

* `violations_tasks_apply` — where a pass only applies, these are the updates of protected resources
  that no declaration opens, by namespace, planner and place in the document.
* `forbiddenDeletes_tasks_sync` — in sync, the deletes among them are those of the abandoned resources
  that are protected, each once.
-/

namespace Reconcile

/-! ## What is to be reported -/

/-- The violations that the result of a pass reports. -/
def reportedBy : Except Failure Plan → List Violation
  | .error (.forbidden vs) => vs
  | _ => []

namespace DesiredState

/-- **A declaration trespasses**: it means a resource, of a kind that is known, on which protection
forbids what it asks for. -/
def trespasses (s : DesiredState) (snap : Snapshot) (k : KindPlanner) (d : Declaration) : Bool :=
  snap.covers k.kind
    && (s.meant? snap d).any fun r => k.isForbidden (s.identify snap d) r

/-- The updates that a desired state may not make, by namespace, planner and place in the document. -/
def forbiddenUpdates (s : DesiredState) (snap : Snapshot) (ks : List KindPlanner) :
    List Violation :=
  s.scopes.flatMap fun scope => ks.flatMap fun k =>
    ((s.inScope k.kind scope).filter (s.trespasses snap k)).map fun d => ⟨d.kind, d.name, .update⟩

end DesiredState

/-- **What a pass reports of what its planners noted.** -/
structure ReportsViolations (snap : Snapshot) (state : DesiredState) (ks : List KindPlanner)
    (mode : Mode) (noted : List Violation) (result : Except Failure Plan) : Prop where
  first : ∀ vs, result = .error (.forbidden vs) ↔ vs = noted ∧ noted ≠ []
  apply : mode = .apply → ((∃ vs, result = .error (.forbidden vs))
    ↔ ∃ k ∈ ks, ∃ d ∈ state.resources, d.kind = k.kind ∧ snap.covers d.kind = true
      ∧ ∃ r, state.meant? snap d = some r ∧ r.isProtected = true
        ∧ (k.compare (state.identify snap d) r).1 = true ∧ d.protect ≠ some false)
  listed : mode = .apply → ∀ vs, result = .error (.forbidden vs) →
    vs = state.forbiddenUpdates snap ks
  sync : mode = .sync → ∃ rs : List Resource, rs.Nodup
    ∧ (∀ r, r ∈ rs ↔ r.Abandoned snap state ks ∧ r.isProtected = true)
    ∧ (reportedBy result).filter (·.action = .delete) = rs.map fun r => ⟨r.kind, r.name, .delete⟩

variable {snap : Snapshot} {state : DesiredState} {accessors : Accessors Declaration}
  {mode : Mode} {ks : List KindPlanner} {k : KindPlanner} {d : Declaration} {r : Resource}

/-! ## Updates -/

theorem DesiredState.trespasses_iff (hkind : d.kind = k.kind) :
    state.trespasses snap k d = true ↔ snap.covers d.kind = true
      ∧ ∃ r, state.meant? snap d = some r ∧ r.isProtected = true
        ∧ (k.compare (state.identify snap d) r).1 = true ∧ d.protect ≠ some false := by
  simp only [trespasses, KindPlanner.isForbidden, DesiredState.protect_identify, Bool.and_eq_true,
    Option.any_eq_true, bne_iff_ne, and_assoc, hkind]

theorem DesiredState.mem_forbiddenUpdates {v : Violation} : v ∈ state.forbiddenUpdates snap ks
    ↔ ∃ k ∈ ks, ∃ d ∈ state.resources, d.kind = k.kind ∧ state.trespasses snap k d = true
      ∧ v = ⟨d.kind, d.name, .update⟩ := by
  simp only [forbiddenUpdates, List.mem_flatMap, List.mem_map, List.mem_filter, state.mem_inScope]
  constructor
  · rintro ⟨scope, -, k, hk, d, ⟨⟨hd, hkind, -⟩, htrespasses⟩, rfl⟩
    exact ⟨k, hk, d, hd, hkind, htrespasses, rfl⟩
  · rintro ⟨k, hk, d, hd, hkind, htrespasses, rfl⟩
    have hscope : state.scopeOf d ∈ state.scopes := state.mem_scopes.mpr ⟨d, hd, rfl⟩
    exact ⟨_, hscope, k, hk, d, ⟨⟨hd, hkind, rfl⟩, htrespasses⟩, rfl⟩

/-- What a task for a declaration may not do is its trespass. -/
theorem violation?_declared (haccepted : state.Accepted) (hdistinct : snap.Distinct)
    (hcovers : snap.covers k.kind = true) {scope : String} (hd : d ∈ state.inScope k.kind scope) :
    (sceneOf snap accessors state mode).violation? (.declared k scope (state.identify snap d))
      = if state.trespasses snap k d then some ⟨d.kind, d.name, .update⟩ else none := by
  obtain ⟨hmem, hkind, rfl⟩ := state.mem_inScope.mp hd
  rw [Scene.violation?, target_sceneOf haccepted hdistinct hmem (hkind ▸ hcovers) hkind.symm,
    DesiredState.trespasses, hcovers, Bool.true_and, hkind, DesiredState.name_identify]
  cases state.meant? snap d <;> rfl

/-- **Where a pass only applies, what its tasks may not do are the trespasses of its
declarations.** -/
theorem violations_tasks_apply (haccepted : state.Accepted) (hdistinct : snap.Distinct) :
    ((sceneOf snap accessors state .apply).tasks ks).filterMap
        (sceneOf snap accessors state .apply).violation?
      = state.forbiddenUpdates snap ks := by
  have htasks : (sceneOf snap accessors state .apply).tasks ks
      = state.scopes.flatMap fun scope =>
        ks.flatMap ((sceneOf snap accessors state .apply).declaredTasksOf scope) := by
    have hfilter := Scene.filter_tasks (sceneOf snap accessors state .apply) ks .sync
    rw [← Scene.tasks_apply] at hfilter
    refine hfilter.trans ?_
    rw [show (sceneOf snap accessors state .apply).desired.scopes = state.scopes from
      DesiredState.scopes_identified]
  rw [htasks, DesiredState.forbiddenUpdates]
  simp only [List.filterMap_flatMap]
  refine List.flatMap_congr fun scope _ => List.flatMap_congr fun k _ => ?_
  have hdeclared : (sceneOf snap accessors state .apply).desired.inScope k.kind scope
      = (state.inScope k.kind scope).map (state.identify snap) :=
    DesiredState.inScope_identified k.kind scope
  unfold Scene.declaredTasksOf
  split
  · next hcovers =>
    rw [hdeclared, List.filterMap_map, List.filterMap_map, ← List.filterMap_eq_map,
      List.filterMap_filter]
    exact List.filterMap_congr fun d hd => violation?_declared haccepted hdistinct hcovers hd
  · next hcovers =>
    have hnone : state.trespasses snap k = fun _ => false := by
      funext d
      rw [DesiredState.trespasses, Bool.and_eq_false_iff]
      exact .inl (Bool.eq_false_iff.mpr hcovers)
    rw [hnone, List.filter_false]
    rfl

/-! ## Deletes -/

/-- The resource that a task takes for unclaimed. -/
def Task.unclaimed? : Task → Option Resource
  | .declared _ _ _ => none
  | .orphan _ _ r => some r

/-- The resources that the tasks of a pass in sync take for unclaimed. -/
def unclaimedOf (snap : Snapshot) (accessors : Accessors Declaration) (state : DesiredState)
    (ks : List KindPlanner) : List Resource :=
  ((sceneOf snap accessors state .sync).tasks ks).filterMap Task.unclaimed?

theorem mem_unclaimedOf : r ∈ unclaimedOf snap accessors state ks
    ↔ ∃ k scope, .orphan k scope r ∈ (sceneOf snap accessors state .sync).tasks ks := by
  rw [unclaimedOf, List.mem_filterMap]
  constructor
  · rintro ⟨_ | ⟨k, scope, r'⟩, ht, hr⟩
    · exact absurd hr (by simp [Task.unclaimed?])
    · obtain rfl := Option.some.inj hr
      exact ⟨k, scope, ht⟩
  · rintro ⟨k, scope, ht⟩
    exact ⟨_, ht, rfl⟩

/-- What its tasks delete are these resources. -/
theorem filterMap_deleted?_eq : ((sceneOf snap accessors state .sync).tasks ks).filterMap
    Task.deleted? = (unclaimedOf snap accessors state ks).map fun r => (r.kind, some r.id) := by
  rw [unclaimedOf, List.map_filterMap]
  refine List.filterMap_congr fun t ht => ?_
  cases t with
  | declared k scope d => rfl
  | orphan k scope r =>
    obtain ⟨-, -, hkind⟩ := Scene.of_orphan_mem ht
    rw [Task.deleted?, Task.unclaimed?, Option.map_some, hkind]

/-- **A pass in sync takes for unclaimed what is abandoned.** -/
theorem mem_unclaimedOf_iff (haccepted : state.Accepted) (hdistinct : snap.Distinct) :
    r ∈ unclaimedOf snap accessors state ks ↔ r.Abandoned snap state ks := by
  have hdeleted : ∀ key, key ∈ ((sceneOf snap accessors state .sync).tasks ks).filterMap
      Task.deleted? ↔ ∃ r : Resource, r.Abandoned snap state ks ∧ key = (r.kind, some r.id) :=
    mem_deleted_tasks haccepted
  simp only [filterMap_deleted?_eq, List.mem_map] at hdeleted
  constructor
  · intro hr
    obtain ⟨r', hr', heq⟩ := (hdeleted (r.kind, some r.id)).mp ⟨r, hr, rfl⟩
    obtain ⟨k, scope, ht⟩ := mem_unclaimedOf.mp hr
    obtain ⟨-, hmem, -⟩ := Scene.of_orphan_mem ht
    obtain ⟨hkind, hid⟩ := Prod.mk.inj heq
    rwa [hdistinct.eq hmem hr'.mem hkind (Option.some.inj hid)]
  · intro hr
    obtain ⟨r', hr', heq⟩ := (hdeleted (r.kind, some r.id)).mpr ⟨r, hr, rfl⟩
    obtain ⟨k, scope, ht⟩ := mem_unclaimedOf.mp hr'
    obtain ⟨-, hmem, -⟩ := Scene.of_orphan_mem ht
    obtain ⟨hkind, hid⟩ := Prod.mk.inj heq
    rwa [← hdistinct.eq hmem hr.mem hkind (Option.some.inj hid)]

/-- **The deletes that a pass in sync may not do are those of the protected ones among them.** -/
theorem forbiddenDeletes_tasks_sync : ((sceneOf snap accessors state .sync).tasks ks).filterMap
    Task.forbiddenDelete? = ((unclaimedOf snap accessors state ks).filter (·.isProtected)).map
      fun r => ⟨r.kind, r.name, .delete⟩ := by
  rw [unclaimedOf, List.filter_filterMap, List.map_filterMap]
  refine List.filterMap_congr fun t ht => ?_
  cases t with
  | declared k scope d => rfl
  | orphan k scope r =>
    obtain ⟨-, -, hkind⟩ := Scene.of_orphan_mem ht
    rw [Task.forbiddenDelete?, Task.unclaimed?, deleteViolation?, ← hkind]
    cases hprotected : r.isProtected <;> simp [Option.filter, hprotected]

/-! ## Reports -/

section Passes

variable {p : Provider} {planners : List Planner} {options : PassOptions} {now : Timestamp}
  {desired : DesiredState} {dr : Draft} {vs : List Violation}

/-- Resolving references finds no violation. -/
theorem resolvePlan_ne_forbidden {plan : Plan} {session session' : Session} :
    resolvePlan p accessors desired plan session ≠ (.error (.forbidden vs), session') := by
  unfold resolvePlan
  rcases resolveReferences p desired.index accessors plan.changes session with
    ⟨e | tally, changes, session₁⟩
  · simp
  · dsimp only
    split <;> simp

/-- Ordering and numbering find no violation. -/
theorem finishPlan_ne_forbidden {plan : Plan} : finishPlan plan ≠ .error (.forbidden vs) := by
  unfold finishPlan
  dsimp only
  split
  · simp
  · split <;> simp

/-- **A pass that drafts to the end reports the violations of the draft**, whatever its references
and dependencies are like. -/
theorem generatePlan_eq_forbidden_iff
    (hdraft : draftOf? p accessors planners state options now = some (desired, dr)) :
    (generatePlan p accessors planners state options now).1 = .error (.forbidden vs)
      ↔ vs = dr.violations ∧ dr.violations ≠ [] := by
  have hends := passEnds_generatePlan p accessors planners state options now
  obtain ⟨session, hidentities, hrun⟩ := draftOf?_eq_some.mp hdraft
  generalize generatePlan p accessors planners state options now = result at hends ⊢
  cases hends with
  | unidentified h => exact absurd (Prod.mk.inj (h.symm.trans hidentities)).1 (by simp)
  | undrafted h hrun' =>
    obtain ⟨hdesired, rfl⟩ := Prod.mk.inj (h.symm.trans hidentities)
    obtain rfl := Except.ok.inj hdesired
    exact absurd (Prod.mk.inj (hrun'.symm.trans hrun)).1 (by simp)
  | forbidden hdraft' hviolations =>
    obtain ⟨rfl, rfl⟩ := Prod.mk.inj (Option.some.inj (hdraft.symm.trans hdraft'))
    simp [hviolations, eq_comm]
  | unresolved hdraft' hlawful h =>
    obtain ⟨rfl, rfl⟩ := Prod.mk.inj (Option.some.inj (hdraft.symm.trans hdraft'))
    refine ⟨fun heq => ?_, fun hnoted => absurd hlawful hnoted.2⟩
    rw [Except.error.inj heq] at h
    exact absurd h resolvePlan_ne_forbidden
  | resolved hdraft' hlawful h =>
    obtain ⟨rfl, rfl⟩ := Prod.mk.inj (Option.some.inj (hdraft.symm.trans hdraft'))
    exact ⟨fun heq => absurd heq finishPlan_ne_forbidden, fun hnoted => absurd hlawful hnoted.2⟩

/-- The report of a pass that drafts to the end lists the violations of the draft. -/
theorem reportedBy_generatePlan
    (hdraft : draftOf? p accessors planners state options now = some (desired, dr)) :
    reportedBy (generatePlan p accessors planners state options now).1 = dr.violations := by
  have hreport : ∀ vs, (generatePlan p accessors planners state options now).1
      = .error (.forbidden vs) ↔ vs = dr.violations ∧ dr.violations ≠ [] := fun _ =>
    generatePlan_eq_forbidden_iff hdraft
  by_cases hnil : dr.violations = []
  · -- without violations the pass ends in another way
    unfold reportedBy
    split
    · next vs h => exact absurd hnil ((hreport vs).mp h).2
    · exact hnil.symm
  · rw [(hreport dr.violations).mpr ⟨rfl, hnil⟩]
    rfl

/-- **Every violation is reported**: a pass over a snapshot with distinct identifiers that drafts to
the end reports exactly what an accepted document may not do. -/
theorem reportsViolations_of_draftOf? (haccepted : state.Accepted) (hdistinct : snap.Distinct)
    (hkinds : (ks.map KindPlanner.kind).Nodup)
    (hdraft : draftOf? (.ofSnapshot snap) accessors (ks.map KindPlanner.toPlanner) state options now
      = some (desired, dr)) :
    ReportsViolations snap state ks options.mode dr.violations
      (generatePlan (.ofSnapshot snap) accessors (ks.map KindPlanner.toPlanner) state options
        now).1 := by
  obtain ⟨-, -, s, hrun, hshows⟩ := shows_of_draftOf? hdraft
  have hnoted : dr.violations = s.violations := hshows.violations
  have hreport : ∀ vs, (generatePlan (.ofSnapshot snap) accessors (ks.map KindPlanner.toPlanner)
      state options now).1 = .error (.forbidden vs) ↔ vs = dr.violations ∧ dr.violations ≠ [] :=
    fun _ => generatePlan_eq_forbidden_iff hdraft
  have hupdates : options.mode = .apply → dr.violations = state.forbiddenUpdates snap ks := by
    intro hmode
    rw [hmode] at hrun
    rw [hnoted, Scene.violations_of_run (nodup_keys_sceneOf haccepted hkinds) (by simp) hrun,
      violations_tasks_apply haccepted hdistinct]
    rfl
  constructor
  case first => exact hreport
  case apply =>
    intro hmode
    simp only [hreport, exists_eq_left, hupdates hmode]
    constructor
    · intro hne
      obtain ⟨v, hv⟩ := List.exists_mem_of_ne_nil _ hne
      obtain ⟨k, hk, d, hd, hkind, htrespasses, -⟩ := DesiredState.mem_forbiddenUpdates.mp hv
      exact ⟨k, hk, d, hd, hkind, (DesiredState.trespasses_iff hkind).mp htrespasses⟩
    · rintro ⟨k, hk, d, hd, hkind, htrespasses⟩
      have hforbidden := (DesiredState.trespasses_iff hkind).mpr htrespasses
      exact List.ne_nil_of_mem
        (DesiredState.mem_forbiddenUpdates.mpr ⟨k, hk, d, hd, hkind, hforbidden, rfl⟩)
  case listed =>
    intro hmode vs h
    rw [((hreport vs).mp h).1, hupdates hmode]
  case sync =>
    intro hmode
    rw [hmode] at hrun
    refine ⟨(unclaimedOf snap accessors state ks).filter (·.isProtected), ?_, fun r => ?_, ?_⟩
    · have hnodup : (((sceneOf snap accessors state .sync).tasks ks).filterMap
          Task.deleted?).Nodup := nodup_deleted_tasks haccepted hdistinct hkinds
      rw [filterMap_deleted?_eq] at hnodup
      exact hnodup.of_map.filter _
    · rw [List.mem_filter, mem_unclaimedOf_iff haccepted hdistinct]
    · rw [reportedBy_generatePlan hdraft, hnoted, Scene.deleteViolations_of_run hrun,
        forbiddenDeletes_tasks_sync]
      rfl

end Passes

/-- Protected apis in two namespaces, one of which nobody declares, and a protected portal. -/
def guardedCatalog : Snapshot where
  resources := [
    { id := "a1", kind := "api", name := "Orders", labels := managementLabels "default" true },
    { id := "a2", kind := "api", name := "Legacy", labels := managementLabels "default" true },
    { id := "a3", kind := "api", name := "Ledger", labels := managementLabels "alpha" true },
    { id := "p1", kind := "portal", name := "Main", labels := managementLabels "default" true }]

/-- Two of the apis are to change and the portal is opened; a new api refers to what nobody knows. -/
def rewrittenCatalog : DesiredState where
  resources := [
    { kind := "api", ref := "orders", name := "Orders", description := .value "Takes orders" },
    { kind := "api", ref := "ledger", name := "Ledger", scope := some "alpha",
      description := .value "Keeps the books" },
    { kind := "portal", ref := "main", name := "Main", protect := some false,
      description := .value "For everybody" },
    { kind := "api", ref := "billing", name := "Billing",
      fields := Dict.singleton "api_id" (.reference (.toId "nowhere")) }]

/-- What a pass over them ends with. -/
def rewriting (mode : Mode) : Except Failure Plan :=
  (generatePlan (.ofSnapshot guardedCatalog) standardAccessors
    ([{ kind := "portal" }, { kind := "api" }].map KindPlanner.toPlanner) rewrittenCatalog
    { mode := mode } ⟨0, 0⟩).1

theorem reportsViolations_rewrittenCatalog : rewrittenCatalog.Accepted ∧ guardedCatalog.Distinct
    ∧ (∃ noted, ReportsViolations guardedCatalog rewrittenCatalog
        [{ kind := "portal" }, { kind := "api" }] .apply noted (rewriting .apply)
      ∧ noted = [⟨"api", "Ledger", .update⟩, ⟨"api", "Orders", .update⟩])
    ∧ ∃ noted, ReportsViolations guardedCatalog rewrittenCatalog
        [{ kind := "portal" }, { kind := "api" }] .sync noted (rewriting .sync)
      ∧ noted = [⟨"api", "Ledger", .update⟩, ⟨"api", "Orders", .update⟩,
        ⟨"api", "Legacy", .delete⟩] := by
  have haccepted : rewrittenCatalog.Accepted := by decide +kernel
  have hdistinct : guardedCatalog.Distinct := by decide
  have hdraft (mode : Mode) {noted : List Violation}
      (h : (draftOf? (.ofSnapshot guardedCatalog) standardAccessors
        ([{ kind := "portal" }, { kind := "api" }].map KindPlanner.toPlanner) rewrittenCatalog
        { mode := mode } ⟨0, 0⟩).map (fun x => x.2.violations) = some noted) :
      ∃ noted', ReportsViolations guardedCatalog rewrittenCatalog
        [{ kind := "portal" }, { kind := "api" }] mode noted' (rewriting mode)
        ∧ noted' = noted := by
    obtain ⟨⟨desired, dr⟩, hdraft, hnoted⟩ := Option.map_eq_some_iff.mp h
    exact ⟨_, reportsViolations_of_draftOf? haccepted hdistinct (by decide) hdraft, hnoted⟩
  exact ⟨haccepted, hdistinct, hdraft .apply (by decide +kernel), hdraft .sync (by decide +kernel)⟩

end Reconcile
