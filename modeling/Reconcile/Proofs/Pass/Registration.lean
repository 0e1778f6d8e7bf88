import Reconcile.Proofs.Drafting.Creates
import Reconcile.Proofs.Drafting.Issued
import Reconcile.Proofs.Drafting.Kinds
import Reconcile.Proofs.Pass.Finishing
import Reconcile.Proofs.Pass.WellLinked

/-!
# Proofs/Pass/Registration — the order of the planners does not matter

Planners share a counter of identifiers and look at what has been drafted before them, so each order
of them drafts in another way: a planner that comes before that of the parents finds no create to
depend on.  Main fact: `rearranged_of_generatePlan` — with planners of distinct kinds in another
order, a pass gives a plan just the same, and it is the same plan up to the order of its changes and
warnings and the positions in identifiers (`Plan.Rearranged`).

The planners draft the same changes whatever their order (`Scene.exists_perm_of_run`).  What the one
draft depends on and the other does not, resolution adds (`Scene.shuffled_resolved`).  Links between
deletes, the ordering and the numbering take shuffled batches to shuffled batches.
-/

namespace Reconcile

open Function (Injective)

/-- **The plan `q` is the plan `p` rearranged**: it has the same changes and warnings in another
order, under identifiers that differ in their positions alone. -/
structure Plan.Rearranged (q p : Plan) (move : String → String) : Prop where
  injective : Injective move
  moved : ∀ e ∈ p.changes, ∃ n m, e.id = (ChangeId.mk n e.action e.kind e.ref).text
    ∧ move e.id = (ChangeId.mk m e.action e.kind e.ref).text
  changes : Shuffled (Change.Alike move) p.changes q.changes
  warnings : (p.warnings.map (Warning.renamed move)).Perm q.warnings

/-! ## Numbering -/

/-- Alike changes under other identifiers. -/
theorem Change.Alike.renamed {σ move rename rename' : String → String} {a b : Change}
    (h : a.Alike σ b) (hid : move (rename a.id) = rename' (σ a.id))
    (hdeps : ∀ d ∈ a.dependsOn, move (rename d) = rename' (σ d)) :
    (a.renamed rename).Alike move (b.renamed rename') where
  id := (congrArg rename' h.id).trans hid.symm
  bare := h.bare
  dependsOn d := by
    change d ∈ b.dependsOn.map rename' ↔ d ∈ (a.dependsOn.map rename).map move
    have hmoved : (a.dependsOn.map rename).map move = (a.dependsOn.map σ).map rename' := by
      rw [List.map_map, List.map_map]
      exact List.map_congr_left hdeps
    rw [hmoved, List.mem_map, List.mem_map]
    exact exists_congr fun x => and_congr_left fun _ => h.dependsOn x

/-- **Shuffled batches are so when they are numbered.** -/
theorem Plan.Renumbered.exists_shuffled {batch batch' p q : Plan} {order order' : List String}
    {rename rename' : String → String} {σ : Equiv.Perm String}
    (h : batch.Renumbered order rename p) (h' : batch'.Renumbered order' rename' q)
    (hchanges : Shuffled (Change.Alike σ) batch.changes batch'.changes)
    (hwarnings : (batch.warnings.map (Warning.renamed σ)).Perm batch'.warnings) :
    ∃ move : Equiv.Perm String, Shuffled (Change.Alike move) p.changes q.changes
      ∧ (p.warnings.map (Warning.renamed move)).Perm q.warnings := by
  obtain ⟨move, hmove⟩ := h.exists_move h' fun id hid =>
    hchanges.moved.perm_ids.mem_iff.mp (List.mem_map_of_mem hid)
  refine ⟨move, ?_, ?_⟩
  · have hrenamed : Shuffled (Change.Alike move) (batch.changes.map (Change.renamed rename))
        (batch'.changes.map (Change.renamed rename')) :=
      hchanges.map fun a ha b _ hab => hab.renamed (hmove a.id (List.mem_map_of_mem ha))
        fun d hd => hmove d (h.known a ha d hd)
    exact (hrenamed.perm_left h.perm_changes.symm).perm_right h'.perm_changes.symm
  · have hmoved : (batch.warnings.map (Warning.renamed rename)).map (Warning.renamed move)
        = (batch.warnings.map (Warning.renamed σ)).map (Warning.renamed rename') := by
      rw [List.map_map, List.map_map]
      refine List.map_congr_left fun w hw => ?_
      simp only [Function.comp_apply, Warning.renamed, hmove w.changeId (h.warned w hw)]
    rw [h.warnings, h'.warnings, hmoved]
    exact hwarnings.map _

/-! ## Drafts -/

namespace Scene

variable {c : Scene} {ks ks' : List KindPlanner} {s s' : Sketch} {ts ts' : List Task}

/-- A draft of as many changes as can be counted has distinct identifiers. -/
theorem nodup_ids_of_run (hkinds : (ks.map KindPlanner.kind).Nodup)
    (hfits : c.desired.resources.length + 2 * c.snapshot.resources.length ≤ ChangeId.positionLimit)
    (h : c.run (c.tasks ks) {} = .ok s) : (s.changes.map (·.id)).Nodup :=
  (counted_of_run h).nodup_ids ((length_changes_le hkinds h).trans hfits)

/-- **Planners in another order draft a shuffled batch.** -/
theorem exists_shuffled_of_run (hkinds : (ks.map KindPlanner.kind).Nodup) (hperm : ks.Perm ks')
    (hfits : c.desired.resources.length + 2 * c.snapshot.resources.length ≤ ChangeId.positionLimit)
    (h : c.run (c.tasks ks) {} = .ok s) (hlawful : s.violations = []) :
    ∃ s', c.run (c.tasks ks') {} = .ok s' ∧ s'.violations = []
      ∧ ∃ σ : Equiv.Perm String, Shuffled (Change.Moved σ) s.changes s'.changes := by
  obtain ⟨s', hrun, hlawful', hbare⟩ := exists_perm_of_run hkinds hperm h hlawful
  have hkinds' : (ks'.map KindPlanner.kind).Nodup := (hperm.map _).nodup_iff.mp hkinds
  exact ⟨s', hrun, hlawful', exists_shuffled_of_perm hbare (nodup_ids_of_run hkinds hfits h)
    (nodup_ids_of_run hkinds' hfits hrun)⟩

section Shuffled

variable {σ : Equiv.Perm String} (h : c.run ts {} = .ok s) (h' : c.run ts' {} = .ok s')
  (hnodup : (s.changes.map (·.id)).Nodup)
  (hshuffled : Shuffled (Change.Moved σ) s.changes s'.changes)

include h h' hnodup hshuffled

/-- **Shuffled drafts come to shuffled batches.** -/
theorem shuffled_batch : Shuffled (Change.Alike σ) (linkDeletes (c.resolved s.changes))
    (linkDeletes (c.resolved s'.changes)) :=
  shuffled_linkDeletes σ.injective <| shuffled_resolved σ.injective hshuffled
    (createsOnce_of_run h) (anticipates_of_run h hnodup)
    (anticipates_of_run h' (hshuffled.nodup_ids σ.injective hnodup))

/-- **Where a draft can be completed, a shuffled one can be, too.** -/
theorem completes_of_shuffled (hcompletes : c.Completes s) (hlawful : s'.violations = []) :
    c.Completes s' where
  lawful := hlawful
  faultless := (faults_eq_nil_of_shuffled σ.injective hshuffled (createsOnce_of_run h)).mp
    hcompletes.faultless
  orderable := by
    have honce : CreatesOnce (linkDeletes (c.resolved s'.changes)) := by
      unfold linkDeletes resolved
      refine ((createsOnce_of_run h').map fun e => ?_).map fun e => ?_
      · exact (Resolution.extends_onChange _ e).core
      · exact (e.extends_addDependencies _).core
    exact hcompletes.orderable.of_shuffled (shuffled_batch h h' hnodup hshuffled) honce
  readable b hb := by
    obtain ⟨a, ha, hab⟩ := hshuffled.exists_left_of_mem hb
    obtain ⟨n, -, hid⟩ := (counted_of_run h).exists_id_eq ha
    obtain ⟨m, hm, hid'⟩ := (counted_of_run h').exists_id_eq hb
    have hread := hcompletes.readable a ha
    rw [hid] at hread
    have hparts : (ChangeId.mk m b.action b.kind b.ref) = ⟨m, a.action, a.kind, a.ref⟩ :=
      hab.congr (fun e => ChangeId.mk m e.action e.kind e.ref) fun _ => rfl
    rw [hid', hparts]
    exact ChangeId.isSome_parse?_text (c := ⟨n, a.action, a.kind, a.ref⟩) hread hm
  warned w hw := by
    have hperm := perm_warnings_of_shuffled (c := c) σ.injective hshuffled (createsOnce_of_run h)
    obtain ⟨v, hv, rfl⟩ := List.mem_map.mp (hperm.mem_iff.mpr hw)
    exact hshuffled.perm_ids.mem_iff.mp (List.mem_map_of_mem (hcompletes.warned v hv))

end Shuffled

end Scene

/-! ## Passes -/

section Passes

variable {snap : Snapshot} {accessors : Accessors Declaration} {state : DesiredState}
  {ks ks' : List KindPlanner} {options : PassOptions} {now : Timestamp} {p q : Plan}

/-- The pass goes over as many declarations and resources as the desired state and the snapshot
have. -/
theorem fits_sceneOf {mode : Mode} {limit : Nat}
    (hfits : state.resources.length + 2 * snap.resources.length ≤ limit) :
    (sceneOf snap accessors state mode).desired.resources.length
      + 2 * (sceneOf snap accessors state mode).snapshot.resources.length ≤ limit := by
  simpa [sceneOf, DesiredState.identified] using hfits

variable (hkinds : (ks.map KindPlanner.kind).Nodup) (hperm : ks.Perm ks')
  (hfits : state.resources.length + 2 * snap.resources.length ≤ ChangeId.positionLimit)

include hkinds hperm hfits

/-- With planners in another order there is a plan, too. -/
theorem exists_plan_of_perm (h : ∃ p, (generatePlan (.ofSnapshot snap) accessors
      (ks.map KindPlanner.toPlanner) state options now).1 = .ok p) :
    ∃ q, (generatePlan (.ofSnapshot snap) accessors (ks'.map KindPlanner.toPlanner) state
      options now).1 = .ok q := by
  obtain ⟨hidentities, s, hrun, hcompletes⟩ := exists_plan_iff.mp h
  obtain ⟨s', hrun', hlawful, σ, hshuffled⟩ :=
    Scene.exists_shuffled_of_run hkinds hperm (fits_sceneOf hfits) hrun hcompletes.lawful
  have hnodup := Scene.nodup_ids_of_run hkinds (fits_sceneOf hfits) hrun
  exact exists_plan_iff.mpr ⟨hidentities, s', hrun',
    Scene.completes_of_shuffled hrun hrun' hnodup hshuffled hcompletes hlawful⟩

/-- **With planners in another order, a plan is rearranged.** -/
theorem exists_rearranged
    (hp : (generatePlan (.ofSnapshot snap) accessors (ks.map KindPlanner.toPlanner) state
      options now).1 = .ok p)
    (hq : (generatePlan (.ofSnapshot snap) accessors (ks'.map KindPlanner.toPlanner) state
      options now).1 = .ok q) : ∃ move, q.Rearranged p move := by
  obtain ⟨-, s, dr, resolved, hstaged⟩ := staged_of_generatePlan hp
  obtain ⟨-, s', dr', resolved', hstaged'⟩ := staged_of_generatePlan hq
  obtain ⟨order, rename, hpassed⟩ := hstaged.passed
  obtain ⟨order', rename', hpassed'⟩ := hstaged'.passed
  obtain ⟨s'', hrun', -, σ, hshuffled⟩ := Scene.exists_shuffled_of_run hkinds hperm
    (fits_sceneOf hfits) hstaged.run hstaged.lawful
  obtain rfl : s'' = s' := Except.ok.inj (hrun'.symm.trans hstaged'.run)
  have hnodup := Scene.nodup_ids_of_run hkinds (fits_sceneOf hfits) hstaged.run
  have hchanges : Shuffled (Change.Alike σ) (linkDeletes resolved.changes)
      (linkDeletes resolved'.changes) := by
    rw [hstaged.changes_resolved, hstaged'.changes_resolved]
    exact Scene.shuffled_batch hstaged.run hstaged'.run hnodup hshuffled
  have hwarnings : (resolved.warnings.map (Warning.renamed σ)).Perm resolved'.warnings := by
    rw [hstaged.warnings_resolved, hstaged'.warnings_resolved]
    exact Scene.perm_warnings_of_shuffled σ.injective hshuffled
      (Scene.createsOnce_of_run hstaged.run)
  obtain ⟨move, hmoved, hwarned⟩ :=
    hpassed.numbered.exists_shuffled hpassed'.numbered hchanges hwarnings
  refine ⟨move, move.injective, fun e he => ?_, hmoved, hwarned⟩
  obtain ⟨e', he', halike⟩ := hmoved.exists_right_of_mem he
  obtain ⟨k, hk⟩ := List.mem_iff_getElem?.mp he
  obtain ⟨k', hk'⟩ := List.mem_iff_getElem?.mp he'
  refine ⟨k + 1, k' + 1, hpassed.id_of_getElem? hk, ?_⟩
  have hparts : ChangeId.mk (k' + 1) e'.action e'.kind e'.ref = ⟨k' + 1, e.action, e.kind, e.ref⟩ :=
    halike.congr (fun e => ChangeId.mk (k' + 1) e.action e.kind e.ref) fun _ => rfl
  rw [← halike.id, hpassed'.id_of_getElem? hk', hparts]

/-- **The order of the planners does not matter**, for planners of distinct kinds, and for no more
declarations and resources than positions can count. -/
theorem rearranged_of_generatePlan :
    ((∃ p, (generatePlan (.ofSnapshot snap) accessors (ks.map KindPlanner.toPlanner) state
        options now).1 = .ok p)
      ↔ ∃ q, (generatePlan (.ofSnapshot snap) accessors (ks'.map KindPlanner.toPlanner) state
        options now).1 = .ok q)
    ∧ ∀ p q, (generatePlan (.ofSnapshot snap) accessors (ks.map KindPlanner.toPlanner) state
        options now).1 = .ok p →
      (generatePlan (.ofSnapshot snap) accessors (ks'.map KindPlanner.toPlanner) state
        options now).1 = .ok q →
      ∃ move, q.Rearranged p move := by
  have hkinds' : (ks'.map KindPlanner.kind).Nodup := (hperm.map _).nodup_iff.mp hkinds
  exact ⟨⟨exists_plan_of_perm hkinds hperm hfits, exists_plan_of_perm hkinds' hperm.symm hfits⟩,
    fun p q hp hq => exists_rearranged hkinds hperm hfits hp hq⟩

end Passes

/-- A version of an api, which points at it twice, and a portal; none of them exists yet. -/
def newCatalog : DesiredState where
  resources := [
    { kind := "api_version", ref := "v1", name := "v1", parent := some ⟨"api", "orders"⟩,
      fields := Dict.singleton "api_id" (.reference (.toId "orders")) },
    { kind := "api", ref := "orders", name := "Orders" },
    { kind := "portal", ref := "main", name := "Main" }]

/-- Planners for its kinds, that of versions before that of apis. -/
def catalogPlanners : List KindPlanner :=
  [{ kind := "api_version" }, { kind := "api" }, { kind := "portal" }]

/-- A pass over an empty remote side. -/
def catalogPass (ks : List KindPlanner) : Except Failure Plan :=
  (generatePlan (.ofSnapshot {}) standardAccessors (ks.map KindPlanner.toPlanner) newCatalog {}
    ⟨0, 0⟩).1

theorem rearranged_newCatalog : (catalogPlanners.map KindPlanner.kind).Nodup
    ∧ catalogPlanners.Perm catalogPlanners.reverse
    ∧ newCatalog.resources.length + 2 * ([] : List Resource).length ≤ ChangeId.positionLimit
    ∧ ∃ p q, catalogPass catalogPlanners = .ok p ∧ catalogPass catalogPlanners.reverse = .ok q
      ∧ p.order = ["1:c:api:orders", "2:c:api_version:v1", "3:c:portal:main"]
      ∧ q.order = ["1:c:portal:main", "2:c:api:orders", "3:c:api_version:v1"]
      ∧ ∃ move, q.Rearranged p move := by
  have hkinds : (catalogPlanners.map KindPlanner.kind).Nodup := by decide
  have hperm : catalogPlanners.Perm catalogPlanners.reverse := (List.reverse_perm _).symm
  have hfits : newCatalog.resources.length + 2 * ([] : List Resource).length
      ≤ ChangeId.positionLimit := by decide
  obtain ⟨p, hp, horder⟩ := exists_ok_of_toOption (f := fun p : Plan => p.order)
    (x := catalogPass catalogPlanners)
    (b := ["1:c:api:orders", "2:c:api_version:v1", "3:c:portal:main"]) (by decide +kernel)
  obtain ⟨q, hq, horder'⟩ := exists_ok_of_toOption (f := fun p : Plan => p.order)
    (x := catalogPass catalogPlanners.reverse)
    (b := ["1:c:portal:main", "2:c:api:orders", "3:c:api_version:v1"]) (by decide +kernel)
  exact ⟨hkinds, hperm, hfits, p, q, hp, hq, horder, horder',
    (rearranged_of_generatePlan hkinds hperm hfits).2 p q hp hq⟩

end Reconcile
