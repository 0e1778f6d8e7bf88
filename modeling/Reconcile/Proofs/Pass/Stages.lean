import Reconcile.Proofs.Drafting.Simulation
import Reconcile.Proofs.Drafting.Sketches
import Reconcile.Proofs.Identity
import Reconcile.Proofs.Numbering
import Reconcile.Proofs.Pass.Moves

/-!
# Proofs/Pass/Stages — how a plan over a snapshot comes about

A plan that a pass gives has gone through every stage: the tasks of the pass draft its changes and
violate nothing, resolution and the links between deletes extend them, and the batch is numbered in
an order in which it can run (`Passed`).  Main facts: `passed_of_generatePlan` and
`Passed.perm_core` — the plan does what the draft does, change by change.
-/

namespace Reconcile

/-- What a pass over a snapshot goes by, once identities are resolved. -/
def sceneOf (snap : Snapshot) (accessors : Accessors Declaration) (state : DesiredState)
    (mode : Mode) : Scene := ⟨snap, accessors, state.identified snap, mode⟩

/-- A declaration of a task is one of the document, with the identifier of what it means. -/
theorem exists_declaration_of_mem_tasks {snap : Snapshot} {accessors : Accessors Declaration}
    {state : DesiredState} {mode : Mode} {ks : List KindPlanner} {k : KindPlanner} {scope : String}
    {d' : Declaration} (h : .declared k scope d' ∈ (sceneOf snap accessors state mode).tasks ks) :
    k ∈ ks ∧ ∃ d ∈ state.resources, d' = state.identify snap d ∧ k.kind = d.kind
      ∧ state.scopeOf d = scope ∧ snap.covers d.kind = true := by
  obtain ⟨hk, hcovers, hdeclared, hkind, hscope⟩ := Scene.of_declared_mem h
  obtain ⟨d, hd, rfl⟩ := List.mem_map.mp hdeclared
  rw [DesiredState.kind_identify] at hkind
  exact ⟨hk, d, hd, rfl, hkind.symm, DesiredState.scopeOf_identify.symm.trans hscope,
    hkind ▸ hcovers⟩

/-- **How a plan comes about.** -/
structure Passed (c : Scene) (ks : List KindPlanner) (s : Sketch) (batch : Plan)
    (order : List String) (rename : String → String) (plan : Plan) : Prop where
  run : c.run (c.tasks ks) {} = .ok s
  lawful : s.violations = []
  resolved : List.Forall₂ (Change.Resolved c (upcomingOf s.changes)) s.changes batch.changes
  ordering : Ordering batch.changes order
  numbered : batch.Renumbered order rename plan

/-- Further dependencies leave a change resolved. -/
theorem Change.Resolved.addDependencies {c : Scene} {upcoming : List Upcoming} {a b : Change}
    (h : a.Resolved c upcoming b) (ds : List String) :
    a.Resolved c upcoming (ds.foldl addDependency b) where
  links := h.links.trans (b.extends_addDependencies ds)
  references hunknown field f hf := by
    rw [references_addDependencies] at hf
    exact (h.references hunknown field f hf).mono (b.extends_addDependencies ds).dependsOn
  parent hunknown p hp hid := by
    rw [parent_addDependencies] at hp
    exact (h.parent hunknown p hp hid).mono (b.extends_addDependencies ds).dependsOn

/-- Links between deletes leave every change resolved. -/
theorem resolved_linkDeletes {c : Scene} {upcoming : List Upcoming} {as bs : List Change}
    (h : List.Forall₂ (Change.Resolved c upcoming) as bs) :
    List.Forall₂ (Change.Resolved c upcoming) as (linkDeletes bs) := by
  rw [linkDeletes, List.forall₂_map_right_iff]
  exact h.imp fun a b hab => hab.addDependencies _

section Stages

variable {snap : Snapshot} {accessors : Accessors Declaration} {ks : List KindPlanner}
  {state : DesiredState} {options : PassOptions} {now : Timestamp} {plan : Plan}

/-- Drafting that succeeds has run the tasks. -/
theorem shows_of_draftAll {c : Scene} {dr dr' : Draft} {s : Sketch}
    (hshows : dr.Shows c.snapshot s) (h : (draftAll (.ofSnapshot c.snapshot) c.accessors
      (ks.map KindPlanner.toPlanner) c.desired c.mode).run.run dr = (.ok (), dr')) :
    ∃ s', c.run (c.tasks ks) s = .ok s' ∧ dr'.Shows c.snapshot s' :=
  (ends_of_run_ok h).mp (c.does_draftAll ks dr s hshows)

/-- A plan with its references resolved, and with what there is to say about that. -/
def Scene.resolvedPlan (c : Scene) (p : Plan) : Plan :=
  { p with
    changes := c.resolved p.changes
    warnings := p.warnings ++ (c.report p.changes).warnings }.refreshSummary

/-- **Resolution of a plan over a snapshot** succeeds where there are no faults. -/
theorem resolvePlan_eq_ok_iff {c : Scene} {p p' : Plan} {session : Session}
    (hs : session.Faithful IsSingle c.snapshot) :
    (resolvePlan (.ofSnapshot c.snapshot) c.accessors c.desired p session).1 = .ok p'
      ↔ (c.report p.changes).faults = [] ∧ p' = c.resolvedPlan p := by
  obtain ⟨session', hresolve⟩ := Scene.exists_resolveReferences_eq hs p.changes
  unfold resolvePlan
  rw [hresolve]
  dsimp only
  split
  · next hnil => simp [List.isEmpty_iff.mp hnil, Scene.resolvedPlan, eq_comm]
  · next hsome =>
    rw [List.isEmpty_iff] at hsome
    simp [hsome]

/-- Finishing orders the batch and numbers it in that order. -/
theorem finishPlan_eq_ok_iff {p : Plan} : finishPlan p = .ok plan
    ↔ ∃ order, executionOrder (linkDeletes p.changes) = .ok order
      ∧ Plan.renumber { p with changes := linkDeletes p.changes } order = .ok plan := by
  unfold finishPlan
  dsimp only
  rcases horder : executionOrder (linkDeletes p.changes) with e | order
  · simp
  · dsimp only
    rcases hnumber : Plan.renumber { p with changes := linkDeletes p.changes } order with e | q
    · simp [hnumber]
    · simp [hnumber]

/-- Finishing that succeeds has ordered and numbered the batch. -/
theorem ordered_of_finishPlan {p : Plan} (h : finishPlan p = .ok plan) :
    ∃ order rename, Ordering (linkDeletes p.changes) order
      ∧ Plan.Renumbered { p with changes := linkDeletes p.changes } order rename plan := by
  obtain ⟨order, horder, hnumber⟩ := finishPlan_eq_ok_iff.mp h
  obtain ⟨rename, hrenumbered⟩ := Plan.renumbered_of_ok hnumber
  exact ⟨order, rename, ordering_of_ok horder, hrenumbered⟩

/-- A pass begins to draft with nothing. -/
theorem shows_firstDraft {session : Session} (h : session.Faithful IsSingle snap) :
    (firstDraft state options now session).Shows snap {} := ⟨rfl, rfl, rfl, rfl, h⟩

/-- **Drafting to the end runs the tasks of the pass**, once identities are resolved. -/
theorem shows_of_draftOf? {desired : DesiredState} {dr : Draft}
    (hdraft : draftOf? (.ofSnapshot snap) accessors (ks.map KindPlanner.toPlanner) state options now
      = some (desired, dr)) :
    desired = state.identified snap ∧ (∀ d ∈ state.resources, d.Exists snap) ∧ ∃ s,
      (sceneOf snap accessors state options.mode).run
          ((sceneOf snap accessors state options.mode).tasks ks) {} = .ok s
        ∧ dr.Shows snap s := by
  obtain ⟨session, hidentities, hrun⟩ := draftOf?_eq_some.mp hdraft
  obtain ⟨rfl, hexists, hfaithful⟩ :=
    resolveIdentities_ofSnapshot distinguished_isSingle Session.faithful_start hidentities
  exact ⟨rfl, hexists, shows_of_draftAll (c := sceneOf snap accessors state options.mode)
    (shows_firstDraft hfaithful) hrun⟩

/-- **What the stages of a pass hand on**: the sketch of the tasks, the draft that shows it, and the
plan with its references resolved. -/
structure Staged (c : Scene) (ks : List KindPlanner) (s : Sketch) (dr : Draft)
    (resolved plan : Plan) : Prop where
  run : c.run (c.tasks ks) {} = .ok s
  lawful : s.violations = []
  shows : dr.Shows c.snapshot s
  faultless : (c.report s.changes).faults = []
  resolved_eq : resolved = c.resolvedPlan dr.plan
  finish : finishPlan resolved = .ok plan

/-- **A pass that gives a plan goes from stage to stage.** -/
theorem staged_of_generatePlan (h : (generatePlan (.ofSnapshot snap) accessors
      (ks.map KindPlanner.toPlanner) state options now).1 = .ok plan) :
    (∀ d ∈ state.resources, d.Exists snap) ∧ ∃ s dr resolved,
      Staged (sceneOf snap accessors state options.mode) ks s dr resolved plan := by
  obtain ⟨desired, dr, resolved, session', hdraft, hlawful, hresolve, hfinish⟩ :=
    generatePlan_eq_ok_iff.mp h
  obtain ⟨rfl, hexists, s, hrun, hshows⟩ := shows_of_draftOf? hdraft
  obtain ⟨hfaultless, hresolved⟩ := (resolvePlan_eq_ok_iff
    (c := sceneOf snap accessors state options.mode) hshows.faithful).mp (congrArg Prod.fst hresolve)
  exact ⟨hexists, s, dr, resolved, hrun, hshows.violations ▸ hlawful, hshows,
    hshows.changes ▸ hfaultless, hresolved, hfinish⟩

/-- The batch that is ordered and numbered is the draft, resolved. -/
theorem Staged.changes_resolved {c : Scene} {s : Sketch} {dr : Draft} {resolved : Plan}
    (h : Staged c ks s dr resolved plan) : resolved.changes = c.resolved s.changes := by
  rw [h.resolved_eq, ← h.shows.changes]
  rfl

/-- Its warnings are those of the resolution. -/
theorem Staged.warnings_resolved {c : Scene} {s : Sketch} {dr : Draft} {resolved : Plan}
    (h : Staged c ks s dr resolved plan) : resolved.warnings = (c.report s.changes).warnings := by
  rw [h.resolved_eq, ← h.shows.changes]
  change dr.plan.warnings ++ _ = _
  rw [h.shows.warnings, List.nil_append]

/-- The stages have done what they are for. -/
theorem Staged.passed {c : Scene} {s : Sketch} {dr : Draft} {resolved : Plan}
    (h : Staged c ks s dr resolved plan) : ∃ order rename,
      Passed c ks s { resolved with changes := linkDeletes resolved.changes } order rename plan := by
  obtain ⟨order, rename, hordering, hnumbered⟩ := ordered_of_finishPlan h.finish
  have hresolved := Scene.forall₂_resolved (Scene.sound_of_run h.run).plain h.faultless
  rw [← h.changes_resolved] at hresolved
  exact ⟨order, rename, h.run, h.lawful, resolved_linkDeletes hresolved, hordering, hnumbered⟩

/-- **A plan over a snapshot has gone through every stage.** -/
theorem passed_of_generatePlan (h : (generatePlan (.ofSnapshot snap) accessors
      (ks.map KindPlanner.toPlanner) state options now).1 = .ok plan) :
    (∀ d ∈ state.resources, d.Exists snap) ∧ ∃ s batch order rename,
      Passed (sceneOf snap accessors state options.mode) ks s batch order rename plan := by
  obtain ⟨hexists, s, dr, resolved, hstaged⟩ := staged_of_generatePlan h
  obtain ⟨order, rename, hpassed⟩ := hstaged.passed
  exact ⟨hexists, s, _, order, rename, hpassed⟩

end Stages

/-- What is read from the result of a pass tells that there is one. -/
theorem exists_ok_of_toOption {ε α β : Type} {f : α → β} {x : Except ε α} {b : β}
    (h : x.toOption.map f = some b) : ∃ a, x = .ok a ∧ f a = b := by
  rcases x with e | a
  · exact absurd h (by simp [Except.toOption])
  · exact ⟨a, rfl, Option.some.inj h⟩

/-! ## From the draft to the plan -/

theorem Change.core_renamed (rename : String → String) (b : Change) :
    (b.renamed rename).core = b.core := rfl

namespace Passed

variable {c : Scene} {ks : List KindPlanner} {s : Sketch} {batch plan : Plan} {order : List String}
  {rename : String → String}

theorem ids_batch (h : Passed c ks s batch order rename plan) :
    batch.changes.map (·.id) = s.changes.map (·.id) :=
  (map_eq_of_forall₂ h.resolved fun _ _ hab => hab.links.id.symm).symm

/-- **The plan does what the draft does**, change by change, in another order. -/
theorem perm_core (h : Passed c ks s batch order rename plan) :
    (plan.changes.map Change.core).Perm (s.changes.map Change.core) := by
  have hbatch : s.changes.map Change.core = batch.changes.map Change.core :=
    map_eq_of_forall₂ h.resolved fun _ _ hab => hab.links.core.symm
  have hrenamed : (batch.changes.map (Change.renamed rename)).map Change.core
      = batch.changes.map Change.core := by
    rw [List.map_map]
    exact List.map_congr_left fun b _ => Change.core_renamed rename b
  rw [hbatch, ← hrenamed]
  exact h.numbered.perm_changes.map Change.core

/-- **Every change of a plan was planned by one of the tasks of the pass.** -/
theorem planned_of_mem (h : Passed c ks s batch order rename plan) {e : Change}
    (he : e ∈ plan.changes) :
    ∃ t ∈ c.tasks ks, ∃ s₁ b, c.verdict s₁ t = .planned b ∧ b.core = e.core := by
  obtain ⟨b, hb, hcore⟩ := List.mem_map.mp (h.perm_core.mem_iff.mp (List.mem_map_of_mem he))
  rcases Scene.mem_changes_of_run h.run hb with hempty | ⟨t, ht, s₁, hplanned⟩
  · exact absurd hempty List.not_mem_nil
  · exact ⟨t, ht, s₁, b, hplanned, hcore⟩

variable {e : Change}

/-- A create of a plan is that of a declaration that means nothing that exists. -/
theorem create_of_mem (h : Passed c ks s batch order rename plan) (he : e ∈ plan.changes)
    (hcreate : e.action = .create) : ∃ k scope d s₁, .declared k scope d ∈ c.tasks ks
      ∧ c.target k scope d = none ∧ (c.createChange k scope d s₁).core = e.core := by
  obtain ⟨t, ht, s₁, b, hplanned, hcore⟩ := h.planned_of_mem he
  have haction : b.core.action = e.core.action := congrArg Change.action hcore
  rcases Scene.planned_cases hplanned with ⟨k, scope, d, r, -, -, -, -, rfl⟩
    | ⟨k, scope, d, rfl, htarget, rfl⟩ | ⟨k, scope, r, -, -, rfl⟩
  · exact absurd (show Action.update = .create from haction.trans hcreate) (by simp)
  · exact ⟨k, scope, d, s₁, ht, htarget, hcore⟩
  · exact absurd (show Action.delete = .create from haction.trans hcreate) (by simp)

/-- An update of a plan is that of a declaration and its target, which needs it and may have it. -/
theorem update_of_mem (h : Passed c ks s batch order rename plan) (he : e ∈ plan.changes)
    (hupdate : e.action = .update) : ∃ k scope d r s₁, .declared k scope d ∈ c.tasks ks
      ∧ c.target k scope d = some r ∧ k.needsChange d r = true
      ∧ updateViolation? k.kind d.name r.isProtected (KindPlanner.flipFor d r)
        (k.compare d r).1 = none
      ∧ (c.updateChange k scope d r s₁).core = e.core := by
  obtain ⟨t, ht, s₁, b, hplanned, hcore⟩ := h.planned_of_mem he
  have haction : b.core.action = e.core.action := congrArg Change.action hcore
  rcases Scene.planned_cases hplanned with ⟨k, scope, d, r, rfl, htarget, hneeds, hpermitted, rfl⟩
    | ⟨k, scope, d, -, -, rfl⟩ | ⟨k, scope, r, -, -, rfl⟩
  · exact ⟨k, scope, d, r, s₁, ht, htarget, hneeds, hpermitted, hcore⟩
  · exact absurd (show Action.create = .update from haction.trans hupdate) (by simp)
  · exact absurd (show Action.delete = .update from haction.trans hupdate) (by simp)

/-- A delete of a plan is that of a resource that nobody declares and that is not protected. -/
theorem delete_of_mem (h : Passed c ks s batch order rename plan) (he : e ∈ plan.changes)
    (hdelete : e.action = .delete) : ∃ k scope r s₁, .orphan k scope r ∈ c.tasks ks
      ∧ r.isProtected = false ∧ (Scene.deleteChange k scope r s₁).core = e.core := by
  obtain ⟨t, ht, s₁, b, hplanned, hcore⟩ := h.planned_of_mem he
  have haction : b.core.action = e.core.action := congrArg Change.action hcore
  rcases Scene.planned_cases hplanned with ⟨k, scope, d, r, -, -, -, -, rfl⟩
    | ⟨k, scope, d, -, -, rfl⟩ | ⟨k, scope, r, rfl, hfree, rfl⟩
  · exact absurd (show Action.update = .delete from haction.trans hdelete) (by simp)
  · exact absurd (show Action.create = .delete from haction.trans hdelete) (by simp)
  · exact ⟨k, scope, r, s₁, ht, hfree, hcore⟩

end Passed

end Reconcile
