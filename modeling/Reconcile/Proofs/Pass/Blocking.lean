import Reconcile.Proofs.Drafting.Creates
import Reconcile.Proofs.Numbering.Faults
import Reconcile.Proofs.Order.Blocking
import Reconcile.Proofs.Pass.PlanFaults

/-!
# Proofs/Pass/Blocking — what can block a pass

The changes of a draft depend on creates alone, and deletes on nothing.  Resolution adds no other
dependencies than creates of the batch (`Change.Attached`), and leaves deletes as they are; so in the
batch that a pass orders (`orderedBatch?`) links lead to creates, or from deletes to deletes.  Main
fact: `onlyCreatesBlock_generatePlan` — over a snapshot, only creates that wait for each other block a
pass.
-/

namespace Reconcile

/-! ## The batch that is ordered -/

section Batch

variable (p : Provider) (accessors : Accessors Declaration) (planners : List Planner)
  (state : DesiredState) (options : PassOptions) (now : Timestamp)

/-- **The batch that a pass orders**, if it comes so far: its draft, if that is lawful, resolved and
with its deletes linked. -/
def orderedBatch? : Option (List Change) :=
  match draftOf? p accessors planners state options now with
  | none => none
  | some (desired, d) =>
    if d.violations = [] then
      match resolvePlan p accessors desired d.plan d.session with
      | (.error _, _) => none
      | (.ok plan, _) => some (linkDeletes plan.changes)
    else none

variable {p accessors planners state options now} {batch : List Change} {ids : List String}
  {details : String}

theorem orderedBatch?_eq_some : orderedBatch? p accessors planners state options now = some batch
    ↔ ∃ desired d plan session,
      draftOf? p accessors planners state options now = some (desired, d) ∧ d.violations = []
      ∧ resolvePlan p accessors desired d.plan d.session = (.ok plan, session)
      ∧ linkDeletes plan.changes = batch := by
  unfold orderedBatch?
  rcases draftOf? p accessors planners state options now with _ | ⟨desired, d⟩
  · simp
  by_cases hlawful : d.violations = []
  · rcases hresolve : resolvePlan p accessors desired d.plan d.session with ⟨e | plan, session⟩ <;>
      simp [hlawful, hresolve]
  · simp [hlawful]

/-- Finishing a plan reports the circle of its batch. -/
theorem finishPlan_eq_cycle_iff {plan : Plan} : finishPlan plan = .error (.plan (.cycle ids details))
    ↔ executionOrder (linkDeletes plan.changes) = .error (.cycle ids details) := by
  unfold finishPlan
  dsimp only
  rcases executionOrder (linkDeletes plan.changes) with e | order
  · simp
  · dsimp only
    rcases hnumber : Plan.renumber { plan with changes := linkDeletes plan.changes } order with e | q
    · -- numbering has faults of its own, and no circle is among them
      have hfaulty := Plan.faulty_of_renumber hnumber
      simp only [Except.error.injEq, Failure.plan.injEq, reduceCtorEq, iff_false]
      rintro rfl
      cases hfaulty
    · simp

/-- A pass that comes so far finishes its plan. -/
theorem generatePlan_of_resolved {desired : DesiredState} {d : Draft} {plan : Plan}
    {session : Session}
    (hdraft : draftOf? p accessors planners state options now = some (desired, d))
    (hlawful : d.violations = [])
    (hresolve : resolvePlan p accessors desired d.plan d.session = (.ok plan, session)) :
    (generatePlan p accessors planners state options now).1 = finishPlan plan := by
  obtain ⟨session₀, hidentities, hrun⟩ := draftOf?_eq_some.mp hdraft
  rw [firstDraft] at hrun
  unfold generatePlan
  rw [hidentities]
  dsimp only
  rw [hrun]
  simp [checkViolations, hlawful, hresolve]

/-- **A pass of planners of declared resources reports the circle of its batch.** -/
theorem generatePlan_eq_cycle_iff {ks : List KindPlanner} :
    (generatePlan p accessors (ks.map KindPlanner.toPlanner) state options now).1
        = .error (.plan (.cycle ids details))
      ↔ ∃ batch, orderedBatch? p accessors (ks.map KindPlanner.toPlanner) state options now
          = some batch ∧ executionOrder batch = .error (.cycle ids details) := by
  constructor
  · intro h
    have hends := passEnds_generatePlan p accessors (ks.map KindPlanner.toPlanner) state options now
    generalize generatePlan p accessors (ks.map KindPlanner.toPlanner) state options now = result
      at hends h
    cases hends with
    | unidentified hidentities =>
      rw [Except.error.inj h] at hidentities
      exact absurd hidentities resolveIdentities_ne_plan
    | undrafted hidentities hdraft =>
      obtain ⟨t, -, hstop⟩ := (ends_of_run_error hdraft).mp
        (walks_draftAll p accessors ks _ options.mode _)
      rw [Except.error.inj h] at hstop
      cases hstop
    | forbidden hdraft hviolations => exact absurd h (by simp)
    | unresolved hdraft hlawful hresolve =>
      rw [Except.error.inj h] at hresolve
      exact absurd hresolve resolvePlan_ne_plan
    | resolved hdraft hlawful hresolve =>
      exact ⟨_, orderedBatch?_eq_some.mpr ⟨_, _, _, _, hdraft, hlawful, hresolve, rfl⟩,
        finishPlan_eq_cycle_iff.mp h⟩
  · rintro ⟨batch, hbatch, hcycle⟩
    obtain ⟨desired, d, plan, session, hdraft, hlawful, hresolve, rfl⟩ :=
      orderedBatch?_eq_some.mp hbatch
    rw [generatePlan_of_resolved hdraft hlawful hresolve]
    exact finishPlan_eq_cycle_iff.mpr hcycle

end Batch

/-! ## Resolution -/

/-- **A change with further dependencies on what is created**: it does what it did. -/
structure Change.Attached (upcoming : List Upcoming) (c c' : Change) : Prop where
  id : c'.id = c.id
  core : c'.core = c.core
  awaits : ∀ d ∈ c'.dependsOn, d ∈ c.dependsOn ∨ ∃ u ∈ upcoming, u.id = d

theorem Change.Attached.action {upcoming : List Upcoming} {c c' : Change}
    (h : c.Attached upcoming c') : c'.action = c.action :=
  show c'.core.action = c.core.action from h.core ▸ rfl

/-- Whatever is done in resolving a change attaches it to creates at most. -/
theorem attached_of_move {s : Surroundings} {p : Provider} {c : Change} (g g' : Progress)
    (hg : c.Attached s.upcoming g.change) (h : Progress.Move s p g g') :
    c.Attached s.upcoming g'.change := by
  cases h with
  | @awaited u hu =>
    have hextends := g.change.extends_addDependency u.id
    refine ⟨hextends.id.trans hg.id, hextends.core.trans hg.core, fun d hd => ?_⟩
    rcases Change.mem_dependsOn_addDependency.mp hd with hlisted | ⟨rfl, -⟩
    · exact hg.awaits d hlisted
    · exact .inr ⟨u, hu, rfl⟩
  | written references parent => exact ⟨hg.id, hg.core, hg.awaits⟩
  | asked _ => exact hg
  | counted => exact hg
  | warned _ _ => exact hg
  | faulted _ => exact hg

/-- **Resolution attaches changes to creates**, and leaves deletes as they are. -/
theorem attached_of_resolveChanges {s : Surroundings} {p : Provider} {changes changes' : List Change}
    {tally tally' : Tally} {session session' : Session}
    (h : Resolution.resolveChanges s p changes tally session = (.ok tally', changes', session')) :
    List.Forall₂ (fun c c' => c.Attached s.upcoming c' ∧ (c.action = .delete → c' = c)) changes
      changes' := by
  induction changes generalizing tally session changes' with
  | nil =>
    obtain rfl := (Prod.mk.inj (Prod.mk.inj h).2).1
    exact .nil
  | cons c rest ih =>
    have hsame : c.Attached s.upcoming c := ⟨rfl, rfl, fun d hd => .inl hd⟩
    rcases Resolution.resolveChanges_cons_ok h with ⟨-, rest', rfl, hrest⟩
      | ⟨hlive, g, rest', hrun, rfl, hrest⟩
    · exact .cons ⟨hsame, fun _ => rfl⟩ (ih hrest)
    · obtain ⟨-, hg⟩ := (ends_of_run_ok hrun).mp ((Resolution.walks_resolveChange s p c).ends
        (E := fun _ _ => True) (I := fun g => c.Attached s.upcoming g.change) attached_of_move
        (fun _ _ _ _ _ => trivial) hsame)
      exact .cons ⟨hg, fun hdelete => absurd hdelete hlive⟩ (ih hrest)

/-- **Resolved, a draft whose changes depend on its creates is linked to them.** -/
theorem leadsToCreates_of_attached {changes changes' : List Change}
    (h : List.Forall₂ (fun c c' => c.Attached (upcomingOf changes) c'
      ∧ (c.action = .delete → c' = c)) changes changes')
    (hlinked : ∀ c ∈ changes, ∀ d ∈ c.dependsOn,
      c.action = .create ∧ ∃ b ∈ changes, b.action = .create ∧ b.id = d)
    (hplain : ∀ c ∈ changes, Resolution.Plain c) : LeadsToCreates (linkDeletes changes') := by
  -- the creates of the draft are creates afterwards, under the same identifiers
  have hcreates : ∀ b ∈ changes, b.action = .create →
      ∃ b' ∈ changes', b'.action = .create ∧ b'.id = b.id := fun b hb hcreate => by
    obtain ⟨b', hb', hattached, -⟩ := exists_right_of_mem h hb
    exact ⟨b', hb', hattached.action.trans hcreate, hattached.id⟩
  refine leadsToCreates_linkDeletes (fun c' hc' _ d hd => ?_) fun c' hc' hdelete => ?_
  · obtain ⟨c, hc, hattached, -⟩ := exists_left_of_mem h hc'
    rcases hattached.awaits d hd with hlisted | ⟨u, hu, rfl⟩
    · obtain ⟨-, b, hb, hcreate, rfl⟩ := hlinked c hc d hlisted
      exact hcreates b hb hcreate
    · obtain ⟨b, hb, rfl⟩ := List.mem_map.mp hu
      obtain ⟨hb, hcreate⟩ := List.mem_filter.mp hb
      exact hcreates b hb (eq_of_beq hcreate)
  · obtain ⟨c, hc, hattached, hspared⟩ := exists_left_of_mem h hc'
    rw [hattached.action] at hdelete
    obtain rfl := hspared hdelete
    refine ⟨List.eq_nil_iff_forall_not_mem.mpr fun d hd => ?_, (hplain c' hc).1,
      (hplain c' hc).2 hdelete⟩
    exact absurd (hdelete.symm.trans (hlinked c' hc d hd).1) (by simp)

/-! ## Passes -/

section Passes

variable {snap : Snapshot} {accessors : Accessors Declaration} {ks : List KindPlanner}
  {state : DesiredState} {options : PassOptions} {now : Timestamp} {batch : List Change}

/-- **In the batch that a pass orders, links lead to creates.** -/
theorem leadsToCreates_of_orderedBatch? (h : orderedBatch? (.ofSnapshot snap) accessors
      (ks.map KindPlanner.toPlanner) state options now = some batch) : LeadsToCreates batch := by
  obtain ⟨desired, d, plan, session, hdraft, -, hresolve, rfl⟩ := orderedBatch?_eq_some.mp h
  obtain ⟨-, -, s, hrun, hshows⟩ := shows_of_draftOf? hdraft
  obtain ⟨tally, hresolved, -⟩ := resolveChanges_of_resolvePlan hresolve
  rw [hshows.changes] at hresolved
  refine leadsToCreates_of_attached (attached_of_resolveChanges hresolved) (fun c hc id hid => ?_)
    (Scene.sound_of_run hrun).plain
  obtain ⟨hcreate, p, -, -, b, hb, hcreates, hid⟩ := Scene.linked_of_run hrun c hc id hid
  simp only [Change.creates, Bool.and_eq_true, beq_iff_eq] at hcreates
  exact ⟨hcreate, b, hb, hcreates.1.1, hid⟩

/-- Until the counter overflows, the changes of the batch have distinct identifiers. -/
theorem nodup_ids_of_orderedBatch? (h : orderedBatch? (.ofSnapshot snap) accessors
      (ks.map KindPlanner.toPlanner) state options now = some batch)
    (hfew : batch.length ≤ ChangeId.positionLimit) : (batch.map (·.id)).Nodup := by
  obtain ⟨desired, d, plan, session, hdraft, -, hresolve, rfl⟩ := orderedBatch?_eq_some.mp h
  obtain ⟨tally, hresolved, -⟩ := resolveChanges_of_resolvePlan hresolve
  have hattached := attached_of_resolveChanges hresolved
  have hlength : d.plan.changes.length = (linkDeletes plan.changes).length :=
    hattached.length_eq.trans (List.length_map _).symm
  rw [ids_linkDeletes, ← map_eq_of_forall₂ hattached fun _ _ hab => hab.1.id.symm]
  exact (orderly_of_draftOf? hdraft).counted.nodup_ids (hlength ▸ hfew)

/-- **What can block a pass**: a pass reports the circles of the batch that it orders; the changes
of a circle are creates, and no delete is reported.  Without creates no circle is reported, and while
the counter of changes does not overflow, the batch can be ordered. -/
structure OnlyCreatesBlock (batch? : Option (List Change)) (result : Except Failure Plan) :
    Prop where
  reports : ∀ ids details, result = .error (.plan (.cycle ids details))
    ↔ ∃ batch, batch? = some batch ∧ executionOrder batch = .error (.cycle ids details)
  blocked : ∀ batch ids details, batch? = some batch →
    executionOrder batch = .error (.cycle ids details) → BlockedByCreates batch ids details
  free : ∀ batch, batch? = some batch → (∀ c ∈ batch, c.action ≠ .create) →
    ∀ ids details, result ≠ .error (.plan (.cycle ids details))
  ordered : ∀ batch, batch? = some batch → (∀ c ∈ batch, c.action ≠ .create) →
    batch.length ≤ ChangeId.positionLimit → ∃ order, executionOrder batch = .ok order

/-- **Only creates that wait for each other block a pass over a snapshot.** -/
theorem onlyCreatesBlock_generatePlan (snap : Snapshot) (accessors : Accessors Declaration)
    (ks : List KindPlanner) (state : DesiredState) (options : PassOptions) (now : Timestamp) :
    OnlyCreatesBlock
      (orderedBatch? (.ofSnapshot snap) accessors (ks.map KindPlanner.toPlanner) state options now)
      (generatePlan (.ofSnapshot snap) accessors (ks.map KindPlanner.toPlanner) state options
        now).1 where
  reports _ _ := generatePlan_eq_cycle_iff
  blocked _ _ _ hbatch hfault := (leadsToCreates_of_orderedBatch? hbatch).blocked hfault
  free batch hbatch hnone ids details hcycle := by
    obtain ⟨batch', hbatch', hfault⟩ := generatePlan_eq_cycle_iff.mp hcycle
    obtain rfl := Option.some.inj (hbatch.symm.trans hbatch')
    obtain ⟨circle, hcircle, -, hcreates⟩ :=
      ((leadsToCreates_of_orderedBatch? hbatch).blocked hfault).circle
    obtain ⟨i, hi⟩ := List.exists_mem_of_length_pos (Nat.zero_lt_of_lt hcircle.two_le)
    obtain ⟨c, hc, hcreate⟩ := hcreates i hi
    exact hnone c (List.mem_of_getElem? hc) hcreate
  ordered _ hbatch hnone hfew := (leadsToCreates_of_orderedBatch? hbatch).exists_order
    (nodup_ids_of_orderedBatch? hbatch hfew) hnone

end Passes

end Reconcile
