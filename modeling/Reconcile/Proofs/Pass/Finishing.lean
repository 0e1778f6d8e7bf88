import Reconcile.Proofs.Order.Existence
import Reconcile.Proofs.Pass.Stages

/-!
# Proofs/Pass/Finishing — which passes give a plan

A pass over a snapshot gives a plan if and only if the declared identifiers exist, the tasks run
through, and the draft can be completed: it violates nothing, resolution finds no fault, and the
batch can be ordered and numbered (`Scene.Completes`).  Main fact: `exists_plan_iff`.
-/

namespace Reconcile

/-! ## The last stage -/

/-- Links between deletes leave identifiers alone. -/
theorem ids_linkDeletes (changes : List Change) :
    (linkDeletes changes).map (·.id) = changes.map (·.id) := by
  rw [linkDeletes, List.map_map]
  exact List.map_congr_left fun e _ => (e.extends_addDependencies _).id

/-- **The last stage succeeds on exactly the plans that can be ordered and numbered.** -/
theorem exists_finishPlan_iff {p : Plan} : (∃ q, finishPlan p = .ok q)
    ↔ Orderable (linkDeletes p.changes) ∧ (∀ id ∈ p.ids, (ChangeId.parse? id).isSome = true)
      ∧ ∀ w ∈ p.warnings, w.changeId ∈ p.ids := by
  let linked : Plan := { p with changes := linkDeletes p.changes }
  have hids : linked.ids = p.ids := ids_linkDeletes p.changes
  constructor
  · rintro ⟨q, hq⟩
    obtain ⟨order, horder, hnumber⟩ := finishPlan_eq_ok_iff.mp hq
    have hnumberable : linked.Numberable order := Plan.exists_renumber_iff.mp ⟨q, hnumber⟩
    exact ⟨exists_executionOrder_iff.mp ⟨order, horder⟩, hids ▸ hnumberable.readable,
      hids ▸ hnumberable.warned⟩
  · rintro ⟨horderable, hreadable, hwarned⟩
    obtain ⟨order, horder⟩ := exists_executionOrder_iff.mpr horderable
    have hnumberable : linked.Numberable order := {
      nodup := horderable.nodup_ids
      perm := (ordering_of_ok horder).perm
      readable := hids ▸ hreadable
      known := horderable.mem_ids
      warned := hids ▸ hwarned }
    obtain ⟨q, hnumber⟩ := Plan.exists_renumber_iff.mpr hnumberable
    exact ⟨q, finishPlan_eq_ok_iff.mpr ⟨order, horder, hnumber⟩⟩

/-! ## All stages -/

/-- **A draft that can be completed.** -/
structure Scene.Completes (c : Scene) (s : Sketch) : Prop where
  lawful : s.violations = []
  faultless : (c.report s.changes).faults = []
  orderable : Orderable (linkDeletes (c.resolved s.changes))
  readable : ∀ e ∈ s.changes, (ChangeId.parse? e.id).isSome = true
  warned : ∀ w ∈ (c.report s.changes).warnings, w.changeId ∈ s.changes.map (·.id)

/-- Resolution leaves identifiers alone. -/
theorem Scene.ids_resolved (c : Scene) (changes : List Change) :
    (c.resolved changes).map (·.id) = changes.map (·.id) := by
  rw [resolved, List.map_map]
  exact List.map_congr_left fun e _ => (Resolution.extends_onChange _ e).id

section Passes

variable {snap : Snapshot} {accessors : Accessors Declaration} {ks : List KindPlanner}
  {state : DesiredState} {options : PassOptions} {now : Timestamp}

/-- **A draft is completed where its resolution has no faults and can be finished.** -/
theorem completes_iff {c : Scene} {s : Sketch} {dr : Draft} (hshows : dr.Shows c.snapshot s) :
    c.Completes s ↔ s.violations = [] ∧ (c.report s.changes).faults = []
      ∧ ∃ q, finishPlan (c.resolvedPlan dr.plan) = .ok q := by
  have hchanges : (c.resolvedPlan dr.plan).changes = c.resolved s.changes := by
    rw [← hshows.changes]
    rfl
  have hwarnings : (c.resolvedPlan dr.plan).warnings = (c.report s.changes).warnings := by
    rw [← hshows.changes]
    change dr.plan.warnings ++ _ = _
    rw [hshows.warnings, List.nil_append]
  have hids : (c.resolvedPlan dr.plan).ids = s.changes.map (·.id) := by
    rw [Plan.ids, hchanges, c.ids_resolved]
  rw [exists_finishPlan_iff, hchanges, hwarnings, hids]
  constructor
  · rintro ⟨hlawful, hfaultless, horderable, hreadable, hwarned⟩
    exact ⟨hlawful, hfaultless, horderable, List.forall_mem_map.mpr hreadable, hwarned⟩
  · rintro ⟨hlawful, hfaultless, horderable, hreadable, hwarned⟩
    exact ⟨hlawful, hfaultless, horderable, List.forall_mem_map.mp hreadable, hwarned⟩

/-- Tasks that run through are drafted. -/
theorem exists_draft_of_run {c : Scene} {dr : Draft} {s s' : Sketch}
    (hshows : dr.Shows c.snapshot s) (h : c.run (c.tasks ks) s = .ok s') :
    ∃ dr', (draftAll (.ofSnapshot c.snapshot) c.accessors (ks.map KindPlanner.toPlanner) c.desired
      c.mode).run.run dr = (.ok (), dr') ∧ dr'.Shows c.snapshot s' := by
  have hends := c.does_draftAll ks dr s hshows
  rcases hdraft : (draftAll (.ofSnapshot c.snapshot) c.accessors (ks.map KindPlanner.toPlanner)
    c.desired c.mode).run.run dr with ⟨e | u, dr'⟩
  · have herror := (ends_of_run_error hdraft).mp hends
    rw [h] at herror
    exact absurd herror (by simp)
  · obtain ⟨s'', hrun, hshows'⟩ := (ends_of_run_ok hdraft).mp hends
    obtain rfl := Except.ok.inj (h.symm.trans hrun)
    exact ⟨dr', rfl, hshows'⟩

/-- **A pass gives a plan if and only if identities can be resolved and the tasks run through to a
draft that can be completed.** -/
theorem exists_plan_iff : (∃ p, (generatePlan (.ofSnapshot snap) accessors
      (ks.map KindPlanner.toPlanner) state options now).1 = .ok p)
    ↔ (∃ desired session, state.resolveIdentities (.ofSnapshot snap) {} = (.ok desired, session))
      ∧ ∃ s, (sceneOf snap accessors state options.mode).run
          ((sceneOf snap accessors state options.mode).tasks ks) {} = .ok s
        ∧ (sceneOf snap accessors state options.mode).Completes s := by
  constructor
  · rintro ⟨p, hp⟩
    obtain ⟨-, s, dr, resolved, hstaged⟩ := staged_of_generatePlan hp
    refine ⟨?_, s, hstaged.run, (completes_iff hstaged.shows).mpr
      ⟨hstaged.lawful, hstaged.faultless, p, hstaged.resolved_eq ▸ hstaged.finish⟩⟩
    obtain ⟨desired, d, -, -, hdraft, -⟩ := generatePlan_eq_ok_iff.mp hp
    obtain ⟨session, hidentities, -⟩ := draftOf?_eq_some.mp hdraft
    exact ⟨desired, session, hidentities⟩
  · rintro ⟨⟨desired, session, hidentities⟩, s, hrun, hcompletes⟩
    obtain ⟨rfl, -, hfaithful⟩ :=
      resolveIdentities_ofSnapshot distinguished_isSingle Session.faithful_start hidentities
    have hfirst : (firstDraft state options now session).Shows snap {} := shows_firstDraft hfaithful
    obtain ⟨dr, hdraft, hshows⟩ : ∃ dr, (draftAll (.ofSnapshot snap) accessors
        (ks.map KindPlanner.toPlanner) (state.identified snap) options.mode).run.run
        (firstDraft state options now session) = (.ok (), dr) ∧ dr.Shows snap s :=
      exists_draft_of_run (c := sceneOf snap accessors state options.mode) hfirst hrun
    obtain ⟨hlawful, hfaultless, q, hq⟩ := (completes_iff hshows).mp hcompletes
    rcases hresolve : resolvePlan (.ofSnapshot snap) accessors (state.identified snap) dr.plan
      dr.session with ⟨r, session'⟩
    have hresolved := (resolvePlan_eq_ok_iff (c := sceneOf snap accessors state options.mode)
      hshows.faithful).mpr ⟨hshows.changes.symm ▸ hfaultless, rfl⟩
    obtain rfl := (congrArg Prod.fst hresolve).symm.trans hresolved
    exact ⟨q, generatePlan_eq_ok_iff.mpr ⟨_, dr, _, session',
      draftOf?_eq_some.mpr ⟨session, hidentities, hdraft⟩, hshows.violations.trans hlawful, hresolve,
      hq⟩⟩

end Passes

end Reconcile
