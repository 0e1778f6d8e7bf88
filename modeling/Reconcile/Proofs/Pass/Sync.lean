import Reconcile.Proofs.Drafting.Modes
import Reconcile.Proofs.Pass.Pruning
import Reconcile.Proofs.Pass.WellLinked
import Reconcile.Proofs.Resolution.Foretelling
import Reconcile.Proofs.Resolution.Renaming

/-!
# Proofs/Pass/Sync — sync is apply plus deletes, where no delete takes a reference

A delete has the name of its resource for a reference.  A declaration with that reference, in a
namespace behind, is then taken for dealt with (`Change.Shadowed`), and nothing is planned for it.
Main fact: `appliesLike_iff_of_generatePlan` — a plan in sync has the creates and updates of the
plan that only applies, up to the positions in identifiers, if and only if none of them is shadowed.

Both passes draft the same where no change is shadowed (`Scene.exists_renamed_of_run`), resolution
follows a renaming (`Scene.resolved_renamed`), and links between deletes leave the other changes
alone (`keptOf_linkDeletes`).
-/

namespace Reconcile

open Function (Injective)

/-- **An abandoned resource takes the reference of a change**: it has the kind, the reference for a
name, and is in a namespace that comes before. -/
def Change.Shadowed (e : Change) (snap : Snapshot) (state : DesiredState) (ks : List KindPlanner) :
    Prop :=
  ∃ r : Resource, r.Abandoned snap state ks ∧ r.kind = e.kind ∧ r.name = e.ref ∧ r.scope < e.scope

/-- **The plan `q` has the creates and updates of the plan `p`** under identifiers that differ in
their positions alone. -/
structure Plan.AppliesLike (q p : Plan) (move : String → String) : Prop where
  injective : Injective move
  moved : ∀ e ∈ keptOf p.changes, ∃ n m, e.id = (ChangeId.mk n e.action e.kind e.ref).text
    ∧ move e.id = (ChangeId.mk m e.action e.kind e.ref).text
  perm : (keptOf q.changes).Perm ((keptOf p.changes).map (Change.renamed move))

/-! ## Stages behind the planners -/

theorem keptOf_map {f : Change → Change} (h : ∀ e, (f e).action = e.action)
    (changes : List Change) : keptOf (changes.map f) = (keptOf changes).map f := by
  unfold keptOf
  rw [List.filter_map]
  congr 2
  funext e
  simp [h]

theorem keptOf_renamed (move : String → String) (changes : List Change) :
    keptOf (changes.map (Change.renamed move)) = (keptOf changes).map (Change.renamed move) :=
  keptOf_map (f := Change.renamed move) (fun _ => rfl) changes

theorem upcomingOf_keptOf (changes : List Change) :
    upcomingOf (keptOf changes) = upcomingOf changes := by
  unfold upcomingOf keptOf
  rw [List.filter_filter]
  congr 2
  funext e
  cases e.action <;> rfl

/-- **Links between deletes leave the other changes alone.** -/
theorem keptOf_linkDeletes (changes : List Change) :
    keptOf (linkDeletes changes) = keptOf changes := by
  unfold linkDeletes
  rw [keptOf_map fun e => (e.extends_addDependencies (deleteLinks changes e)).action]
  refine (List.map_congr_left fun e he => ?_).trans (List.map_id _)
  simp [deleteLinks, (mem_keptOf.mp he).2]

namespace Scene

variable {c : Scene} {move : String → String}

theorem action_onChange (e : Resolution.Effect) (b : Change) : (e.onChange b).action = b.action :=
  (b.extends_addDependencies e.awaited).action

/-- Deletes do not matter to the other changes. -/
theorem keptOf_resolved (c : Scene) (changes : List Change) :
    keptOf (c.resolved changes) = c.resolved (keptOf changes) := by
  unfold resolved
  rw [keptOf_map fun e => action_onChange _ e, upcomingOf_keptOf]

/-- **Resolution follows a renaming of identifiers.** -/
theorem resolved_renamed (hmove : Injective move) (changes : List Change) :
    c.resolved (changes.map (Change.renamed move))
      = (c.resolved changes).map (Change.renamed move) := by
  unfold resolved
  rw [upcomingOf_renamed, List.map_map, List.map_map]
  refine List.map_congr_left fun e _ => ?_
  have haround : c.around ((upcomingOf changes).map (Upcoming.renamed move))
      = (c.around (upcomingOf changes)).renamed move := rfl
  simp only [Function.comp_apply]
  rw [haround, Resolution.effectOf_renamed hmove, Resolution.Effect.onChange_renamed hmove]

end Scene

/-! ## Numbering -/

/-- **Batches that are the same up to a renaming are so when they are numbered.** -/
theorem Plan.Renumbered.exists_perm {batch batch' p q : Plan} {order order' : List String}
    {rename rename' : String → String} {σ : Equiv.Perm String}
    (h : batch.Renumbered order rename p) (h' : batch'.Renumbered order' rename' q)
    (hkept : keptOf batch.changes = batch.changes)
    (hkept' : keptOf batch'.changes = batch.changes.map (Change.renamed σ)) :
    ∃ move : Equiv.Perm String,
      (keptOf q.changes).Perm ((keptOf p.changes).map (Change.renamed move)) := by
  have hids' : (keptOf batch'.changes).map (·.id) = batch.ids.map σ := by
    rw [hkept', Plan.ids, List.map_map, List.map_map]
    rfl
  have hsub : ((keptOf batch'.changes).map (·.id)).Sublist batch'.ids := List.filter_sublist.map _
  obtain ⟨move, hid⟩ := h.exists_move h' fun id hid =>
    hsub.subset (hids'.symm ▸ List.mem_map_of_mem hid)
  have hchange : ∀ b ∈ batch.changes,
      (b.renamed σ).renamed rename' = (b.renamed rename).renamed move := by
    intro b hb
    have hdeps : (b.dependsOn.map σ).map rename' = (b.dependsOn.map rename).map move := by
      rw [List.map_map, List.map_map]
      exact List.map_congr_left fun d hd => (hid d (h.known b hb d hd)).symm
    have hown := hid b.id (List.mem_map_of_mem hb)
    simp only [Change.renamed, hdeps, hown]
  refine ⟨move, ?_⟩
  have hq : (keptOf q.changes).Perm ((keptOf batch'.changes).map (Change.renamed rename')) := by
    rw [← keptOf_renamed]
    exact h'.perm_changes.filter _
  have hp : (keptOf p.changes).Perm ((keptOf batch.changes).map (Change.renamed rename)) := by
    rw [← keptOf_renamed]
    exact h.perm_changes.filter _
  have hsame : (keptOf batch'.changes).map (Change.renamed rename')
      = ((keptOf batch.changes).map (Change.renamed rename)).map (Change.renamed move) := by
    rw [hkept, hkept', List.map_map, List.map_map]
    exact List.map_congr_left hchange
  rw [hsame] at hq
  exact hq.trans (hp.map _).symm

/-! ## Both passes -/

section Passes

variable {snap : Snapshot} {accessors : Accessors Declaration} {state : DesiredState}
  {ks : List KindPlanner} {generator : Option String} {now : Timestamp} {s : Sketch}
  {batch p q : Plan} {order : List String} {rename : String → String}

/-- Without deletes, the tasks of a pass in sync are those of one that only applies. -/
theorem tasks_sceneOf_apply : (sceneOf snap accessors state .apply).tasks ks
    = ((sceneOf snap accessors state .sync).tasks ks).filter Task.isDeclared :=
  Scene.tasks_apply (sceneOf snap accessors state .apply) ks

/-- A pass that only applies drafts no delete. -/
theorem keptOf_of_run_apply
    (h : (sceneOf snap accessors state .apply).run ((sceneOf snap accessors state .apply).tasks ks)
      {} = .ok s) : keptOf s.changes = s.changes := by
  refine List.filter_eq_self.mpr fun e he => ?_
  rcases Scene.mem_changes_of_run h he with hempty | ⟨t, ht, s₁, hplanned⟩
  · exact absurd hempty List.not_mem_nil
  · obtain ⟨scope, -, k, -, hmem⟩ := Scene.mem_tasks.mp ht
    obtain ⟨d, -, rfl⟩ := Scene.eq_declared_of_mem rfl hmem
    simpa using Scene.action_of_planned_declared rfl hplanned

theorem Scene.scope_of_planned {c : Scene} {t : Task} {e : Change}
    (h : c.verdict s t = .planned e) : e.scope = t.scope := by
  rcases planned_cases h with ⟨k, scope, d, r, rfl, -, -, -, rfl⟩ | ⟨k, scope, d, rfl, -, rfl⟩
    | ⟨k, scope, r, rfl, -, rfl⟩ <;> rfl

/-- **Where no change is shadowed, nothing is drafted for a declaration whose reference a delete
takes.** -/
theorem forall_key_ne_of_takes (haccepted : state.Accepted)
    (hkinds : (ks.map KindPlanner.kind).Nodup)
    (h : Passed (sceneOf snap accessors state .apply) ks s batch order rename p)
    (hfree : ∀ e ∈ keptOf p.changes, ¬e.Shadowed snap state ks) :
    ((sceneOf snap accessors state .sync).tasks ks).Pairwise fun u t =>
      u.Takes t → ∀ b ∈ s.changes, b.key ≠ t.key := by
  refine (Scene.scope_lt_of_takes _ hkinds).imp_of_mem fun {u t} hu ht hlt htakes b hb hkey => ?_
  -- the change was planned by this very task, so it is in the namespace of the task
  have hscope : b.scope = t.scope := by
    rcases Scene.mem_changes_of_run h.run hb with hempty | ⟨t', ht', s₁, hplanned⟩
    · exact absurd hempty List.not_mem_nil
    · have htask : t ∈ (sceneOf snap accessors state .apply).tasks ks := by
        rw [tasks_sceneOf_apply]
        exact List.mem_filter.mpr ⟨ht, htakes.2.1⟩
      have hsame : t' = t := List.inj_on_of_nodup_map (nodup_keys_sceneOf haccepted hkinds) ht'
        htask ((Scene.key_of_planned hplanned).symm.trans hkey)
      rw [Scene.scope_of_planned hplanned, hsame]
  obtain ⟨e, he, hcore⟩ := List.mem_map.mp
    (h.perm_core.mem_iff.mpr (List.mem_map_of_mem (f := Change.core) hb))
  have hbkept : b ∈ keptOf s.changes := (keptOf_of_run_apply h.run).symm ▸ hb
  obtain ⟨haction, hekey, hescope⟩ := Change.parts_of_core_eq hcore
  have hekept : e ∈ keptOf p.changes :=
    mem_keptOf.mpr ⟨he, haction ▸ (mem_keptOf.mp hbkept).2⟩
  obtain ⟨scope, hplanned, k, hk, hmem⟩ := Scene.mem_tasks.mp hu
  obtain ⟨hcovers, ⟨d, -, rfl⟩ | ⟨-, r, hr, rfl⟩⟩ := Scene.mem_tasksOf.mp hmem
  · exact absurd htakes.1 (by simp [Task.isDeclared])
  · have hscopes : planningScopes (state.identified snap) .sync = planningScopes state .sync :=
      DesiredState.planningScopes_identified .sync
    obtain ⟨habandoned, hkind, hin⟩ :=
      abandoned_of_mem_orphansOf haccepted (hscopes ▸ hplanned) hk hcovers hr
    have hkeys : (e.kind, e.ref) = (k.kind, r.name) := hekey.trans (hkey.trans htakes.2.2)
    obtain ⟨hekind, heref⟩ := Prod.mk.inj hkeys
    refine hfree e hekept ⟨r, habandoned, hkind.trans hekind.symm, heref.symm, ?_⟩
    rw [hin, hescope, hscope]
    exact hlt htakes

/-- **Where no create or update is shadowed, sync is apply plus deletes**, for an accepted
document. -/
theorem appliesLike_of_generatePlan (haccepted : state.Accepted)
    (hkinds : (ks.map KindPlanner.kind).Nodup)
    (hp : (generatePlan (.ofSnapshot snap) accessors (ks.map KindPlanner.toPlanner) state
      { mode := .apply, generator := generator } now).1 = .ok p)
    (hq : (generatePlan (.ofSnapshot snap) accessors (ks.map KindPlanner.toPlanner) state
      { mode := .sync, generator := generator } now).1 = .ok q)
    (hfree : ∀ e ∈ keptOf p.changes, ¬e.Shadowed snap state ks) :
    ∃ move, q.AppliesLike p move := by
  obtain ⟨-, s, dr, resolved, hstaged⟩ := staged_of_generatePlan hp
  obtain ⟨-, s', dr', resolved', hstaged'⟩ := staged_of_generatePlan hq
  obtain ⟨order, rename, hpassed⟩ := hstaged.passed
  obtain ⟨order', rename', hpassed'⟩ := hstaged'.passed
  have hnodup : (s.changes.map (·.id)).Nodup := hpassed.ids_batch ▸ hpassed.numbered.nodup
  have hnodup' : (s'.changes.map (·.id)).Nodup := hpassed'.ids_batch ▸ hpassed'.numbered.nodup
  obtain ⟨σ, hσ⟩ := Scene.exists_renamed_of_run (c := sceneOf snap accessors state .apply)
    hpassed.run hpassed'.run hnodup hnodup'
    (forall_key_ne_of_takes haccepted hkinds hpassed hfree)
  have hkept : keptOf (linkDeletes resolved.changes) = linkDeletes resolved.changes := by
    refine List.filter_eq_self.mpr fun e he => ?_
    obtain ⟨a, ha, hextends⟩ := hpassed.exists_draft he
    rw [← keptOf_of_run_apply hpassed.run] at ha
    rw [hextends.links.action]
    exact (List.mem_filter.mp ha).2
  have hkept' : keptOf (linkDeletes resolved'.changes)
      = (linkDeletes resolved.changes).map (Change.renamed σ) := by
    rw [← hkept, keptOf_linkDeletes, keptOf_linkDeletes, hstaged.changes_resolved,
      hstaged'.changes_resolved, Scene.keptOf_resolved, Scene.keptOf_resolved, hσ,
      keptOf_of_run_apply hpassed.run]
    exact Scene.resolved_renamed σ.injective s.changes
  obtain ⟨move, hmove⟩ := hpassed.numbered.exists_perm hpassed'.numbered hkept hkept'
  refine ⟨move, move.injective, fun e he => ?_, hmove⟩
  obtain ⟨k, hk⟩ := List.mem_iff_getElem?.mp (mem_keptOf.mp he).1
  have hmem : e.renamed move ∈ q.changes :=
    (mem_keptOf.mp (hmove.mem_iff.mpr (List.mem_map_of_mem he))).1
  obtain ⟨k', hk'⟩ := List.mem_iff_getElem?.mp hmem
  exact ⟨k + 1, k' + 1, hpassed.id_of_getElem? hk, hpassed'.id_of_getElem? hk'⟩

/-- A change that is shadowed was planned for a declaration whose reference a delete of an earlier
namespace takes. -/
theorem exists_takes_of_shadowed (haccepted : state.Accepted)
    (h : Passed (sceneOf snap accessors state .apply) ks s batch order rename p)
    {e : Change} (he : e ∈ keptOf p.changes) (hshadowed : e.Shadowed snap state ks) :
    ∃ u ∈ (sceneOf snap accessors state .sync).tasks ks,
      ∃ t ∈ (sceneOf snap accessors state .sync).tasks ks,
        u.Takes t ∧ u.scope < t.scope ∧ t.key = e.key := by
  obtain ⟨r, habandoned, hkind, hname, hlt⟩ := hshadowed
  obtain ⟨t, ht, s₁, b, hplanned, hcore⟩ := h.planned_of_mem (mem_keptOf.mp he).1
  rw [tasks_sceneOf_apply] at ht
  obtain ⟨htask, hdeclared⟩ := List.mem_filter.mp ht
  obtain ⟨-, hbkey, hbscope⟩ := Change.parts_of_core_eq hcore
  have hkey : t.key = e.key := (Scene.key_of_planned hplanned).symm.trans hbkey
  have hscope : t.scope = e.scope := (Scene.scope_of_planned hplanned).symm.trans hbscope
  obtain ⟨k, hk, hkkind, hcovers, hscopes, horphan⟩ : ∃ k ∈ ks, k.kind = r.kind
      ∧ snap.covers k.kind = true ∧ r.scope ∈ planningScopes state .sync
      ∧ r ∈ (sceneOf snap accessors state .sync).orphansOf r.scope k :=
    mem_orphansOf_of_abandoned haccepted habandoned
  have hplans : r.scope ∈ planningScopes (state.identified snap) .sync := by
    rwa [DesiredState.planningScopes_identified]
  refine ⟨.orphan k r.scope r, ?_, t, htask, ⟨rfl, hdeclared, ?_⟩, ?_, hkey⟩
  · exact Scene.mem_tasks.mpr ⟨r.scope, hplans, k, hk,
      Scene.mem_tasksOf.mpr ⟨hcovers, .inr ⟨rfl, r, horphan, rfl⟩⟩⟩
  · exact hkey.trans (Prod.ext (hkind.symm.trans hkkind.symm) hname.symm)
  · rw [hscope]
    exact hlt

/-- **A change that is shadowed has no part in a plan in sync.** -/
theorem not_shadowed_of_appliesLike (haccepted : state.Accepted)
    (hkinds : (ks.map KindPlanner.kind).Nodup)
    (h : Passed (sceneOf snap accessors state .apply) ks s batch order rename p)
    {s' : Sketch} {batch' : Plan} {order' : List String} {rename' move : String → String}
    (h' : Passed (sceneOf snap accessors state .sync) ks s' batch' order' rename' q)
    (hlike : q.AppliesLike p move) : ∀ e ∈ keptOf p.changes, ¬e.Shadowed snap state ks := by
  intro e he hshadowed
  obtain ⟨u, hu, t, ht, htakes, hlt, hkey⟩ := exists_takes_of_shadowed haccepted h he hshadowed
  have hnone : ∀ b ∈ keptOf s'.changes, b.key ≠ t.key :=
    Scene.forall_key_ne_of_scope_lt (c := sceneOf snap accessors state .sync)
      (nodup_keys_sceneOf haccepted hkinds) h'.run h'.lawful hu ht htakes hlt
  -- the change is in the plan in sync too, so something was drafted for its declaration
  obtain ⟨hmem, hkept⟩ := mem_keptOf.mp
    (hlike.perm.mem_iff.mpr (List.mem_map_of_mem (f := Change.renamed move) he))
  obtain ⟨b, hb, hcore⟩ := List.mem_map.mp
    (h'.perm_core.mem_iff.mp (List.mem_map_of_mem (f := Change.core) hmem))
  obtain ⟨haction, hbkey, -⟩ := Change.parts_of_core_eq hcore
  exact hnone b (mem_keptOf.mpr ⟨hb, haction ▸ hkept⟩) (hbkey.trans hkey.symm)

/-- **Sync is apply plus deletes if and only if no create or update is shadowed**, for an accepted
document and planners of distinct kinds. -/
theorem appliesLike_iff_of_generatePlan (haccepted : state.Accepted)
    (hkinds : (ks.map KindPlanner.kind).Nodup)
    (hp : (generatePlan (.ofSnapshot snap) accessors (ks.map KindPlanner.toPlanner) state
      { mode := .apply, generator := generator } now).1 = .ok p)
    (hq : (generatePlan (.ofSnapshot snap) accessors (ks.map KindPlanner.toPlanner) state
      { mode := .sync, generator := generator } now).1 = .ok q) :
    (∃ move, q.AppliesLike p move) ↔ ∀ e ∈ keptOf p.changes, ¬e.Shadowed snap state ks := by
  obtain ⟨-, s, batch, order, rename, hpassed⟩ := passed_of_generatePlan hp
  obtain ⟨-, s', batch', order', rename', hpassed'⟩ := passed_of_generatePlan hq
  constructor
  · rintro ⟨move, hlike⟩
    exact not_shadowed_of_appliesLike haccepted hkinds hpassed hpassed' hlike
  · exact appliesLike_of_generatePlan haccepted hkinds hp hq

end Passes

/-- An api of one namespace that nobody declares. -/
def formerOrders : Snapshot where
  resources := [
    { id := "a1", kind := "api", name := "orders", labels := managementLabels "alpha" false }]

/-- An api that is declared, with a reference, in a namespace behind that one. -/
def relocatedOrders (ref : String) : DesiredState where
  defaults := { scopes := ["alpha"] }
  resources := [{ kind := "api", ref := ref, name := "Orders", scope := some "beta" }]

/-- A pass over the two. -/
def relocation (ref : String) (mode : Mode) : Except Failure Plan :=
  (generatePlan (.ofSnapshot formerOrders) standardAccessors
    ([{ kind := "api" }].map KindPlanner.toPlanner) (relocatedOrders ref)
    { mode := mode, generator := none } ⟨0, 0⟩).1

theorem appliesLike_relocatedOrders : (relocatedOrders "purchases").Accepted ∧ ∃ p q,
    relocation "purchases" .apply = .ok p ∧ relocation "purchases" .sync = .ok q
    ∧ deletesOf q.changes = [("api", some "a1")]
    ∧ (∀ e ∈ keptOf p.changes,
      ¬e.Shadowed formerOrders (relocatedOrders "purchases") [{ kind := "api" }])
    ∧ ∃ move, q.AppliesLike p move := by
  have haccepted : (relocatedOrders "purchases").Accepted := by
    unfold DesiredState.Accepted
    decide +kernel
  obtain ⟨p, hp, hrefs⟩ := exists_ok_of_toOption
    (f := fun p : Plan => (keptOf p.changes).map (·.ref)) (x := relocation "purchases" .apply)
    (b := ["purchases"]) (by decide +kernel)
  obtain ⟨q, hq, hdeletes⟩ := exists_ok_of_toOption (f := fun p : Plan => deletesOf p.changes)
    (x := relocation "purchases" .sync) (b := [("api", some "a1")]) (by decide +kernel)
  have hfree : ∀ e ∈ keptOf p.changes,
      ¬e.Shadowed formerOrders (relocatedOrders "purchases") [{ kind := "api" }] := by
    rintro e he ⟨r, hr, -, hname, -⟩
    have href : e.ref ∈ ["purchases"] := hrefs ▸ List.mem_map_of_mem he
    have horders : r.name = "orders" := by
      rw [List.mem_singleton.mp hr.mem]
    rw [List.mem_singleton.mp href, horders] at hname
    exact absurd hname (by decide)
  exact ⟨haccepted, p, q, hp, hq, hdeletes, hfree,
    (appliesLike_iff_of_generatePlan haccepted (by simp) hp hq).mpr hfree⟩

/-- **The delete of an api takes the reference of a declared one**: nothing is planned for the
latter in sync, though applying creates it. -/
theorem not_appliesLike_relocatedOrders : (relocatedOrders "orders").Accepted ∧ ∃ p q,
    relocation "orders" .apply = .ok p ∧ relocation "orders" .sync = .ok q
    ∧ ∀ move, ¬q.AppliesLike p move := by
  have haccepted : (relocatedOrders "orders").Accepted := by
    unfold DesiredState.Accepted
    decide +kernel
  obtain ⟨p, hp, hcreates⟩ := exists_ok_of_toOption (f := fun p : Plan => (keptOf p.changes).length)
    (x := relocation "orders" .apply) (b := 1) (by decide +kernel)
  obtain ⟨q, hq, hnone⟩ := exists_ok_of_toOption (f := fun p : Plan => (keptOf p.changes).length)
    (x := relocation "orders" .sync) (b := 0) (by decide +kernel)
  refine ⟨haccepted, p, q, hp, hq, fun move hsame => ?_⟩
  have hlength := hsame.perm.length_eq
  rw [List.length_map, hcreates, hnone] at hlength
  exact absurd hlength (by decide)

end Reconcile
