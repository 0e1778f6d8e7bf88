import Reconcile.Proofs.Drafting.Creates
import Reconcile.Proofs.Pass.Pruning

/-!
# Proofs/Pass/Aims — which changes are about one resource

A planner goes by kind and reference: where it has drafted a change for these it drafts no other one
(`Scene.pairwise_keys_of_run`).  Nothing keeps two declarations from meaning one resource, and then
each of them may update it.  Main fact: `pairwise_rivals_of_generatePlan` — a create is about no
resource yet, and changes of a plan that are about one resource are updates for different
declarations that both claim it (`Change.Rival`); a resource that is deleted has no other change.
-/

namespace Reconcile

/-- **Two updates rival**: they are for declarations of one kind, with different references, that
claim one identifier. -/
structure Change.Rival (snap : Snapshot) (state : DesiredState) (a b : Change) : Prop where
  left : a.action = .update
  right : b.action = .update
  claimed : ∃ d ∈ state.resources, ∃ d' ∈ state.resources,
    d.kind = a.kind ∧ d'.kind = b.kind ∧ d.ref = a.ref ∧ d'.ref = b.ref ∧ d.ref ≠ d'.ref
    ∧ state.claimedId? snap d = a.resourceId ∧ state.claimedId? snap d' = b.resourceId

variable {snap : Snapshot} {state : DesiredState} {accessors : Accessors Declaration}
  {mode : Mode} {ks : List KindPlanner}

/-! ## Changes with one kind and reference -/

/-- The changes differ in kind or reference, unless one of them is a delete. -/
def Change.KeysApart (a b : Change) : Prop :=
  a.action ≠ .delete → b.action ≠ .delete → a.key ≠ b.key

theorem Change.KeysApart.symm {a b : Change} (h : a.KeysApart b) : b.KeysApart a :=
  fun hb ha heq => h ha hb heq.symm

namespace Scene

variable {c : Scene} {s : Sketch} {ts : List Task}

/-- **No two creates or updates of a draft have one kind and reference.** -/
theorem pairwise_keys_of_run (h : c.run ts {} = .ok s) :
    s.changes.Pairwise Change.KeysApart := by
  refine run_induction (I := fun s => s.changes.Pairwise Change.KeysApart)
    (fun t _ s₁ s₂ hapart hstep => ?_) List.Pairwise.nil h
  rcases changes_step hstep with heq | ⟨e, hplanned, heq⟩
  · rwa [heq]
  · rw [heq]
    refine List.pairwise_append.mpr ⟨hapart, List.pairwise_singleton _ _, fun b hb e' he' => ?_⟩
    obtain rfl := List.mem_singleton.mp he'
    exact fun _ hkept => key_ne_of_planned hplanned hkept b hb

end Scene

/-! ## Changes of one resource -/

section Plans

variable {s : Sketch} {batch plan : Plan} {order : List String} {rename : String → String}
  {a b e : Change}

theorem Passed.pairwise_keys {c : Scene} (h : Passed c ks s batch order rename plan) :
    plan.changes.Pairwise Change.KeysApart := by
  have hdraft : (s.changes.map Change.core).Pairwise Change.KeysApart :=
    List.pairwise_map.mpr (Scene.pairwise_keys_of_run h.run)
  have hplan : (plan.changes.map Change.core).Pairwise Change.KeysApart :=
    (h.perm_core.pairwise_iff fun hab => hab.symm).mpr hdraft
  have hcore := List.pairwise_map.mp hplan
  exact hcore

/-- A create is about no resource. -/
theorem Passed.resourceId_create {c : Scene} (h : Passed c ks s batch order rename plan)
    (he : e ∈ plan.changes) (hcreate : e.action = .create) : e.resourceId = none := by
  obtain ⟨k, scope, d, s₁, -, -, hcore⟩ := h.create_of_mem he hcreate
  have hid : none = e.resourceId := congrArg Change.resourceId hcore
  exact hid.symm

/-- A delete is about what is abandoned. -/
theorem Passed.delete_abandoned (haccepted : state.Accepted)
    (h : Passed (sceneOf snap accessors state mode) ks s batch order rename plan)
    (he : e ∈ plan.changes) (hdelete : e.action = .delete) :
    ∃ r : Resource, r.Abandoned snap state ks ∧ e.remoteKey = (r.kind, some r.id) := by
  obtain ⟨k, scope, r, s₁, ht, -, hcore⟩ := h.delete_of_mem he hdelete
  have hkey : (k.kind, some r.id) = e.remoteKey := congrArg Change.remoteKey hcore
  obtain ⟨scope', hscope, k', hk, hof⟩ := Scene.mem_tasks.mp ht
  obtain ⟨hcovers, ⟨d, -, heq⟩ | ⟨hmode, r', hr, heq⟩⟩ := Scene.mem_tasksOf.mp hof
  · exact absurd heq (by simp)
  · obtain ⟨rfl, rfl, rfl⟩ := Task.orphan.inj heq
    obtain rfl : mode = .sync := hmode
    have hscopes : planningScopes (state.identified snap) .sync = planningScopes state .sync :=
      DesiredState.planningScopes_identified .sync
    have hscope' : scope ∈ planningScopes state .sync := by
      rw [← hscopes]
      exact hscope
    obtain ⟨habandoned, hkind, -⟩ := abandoned_of_mem_orphansOf haccepted hscope' hk hcovers hr
    exact ⟨r, habandoned, hkey.symm.trans (congrArg (·, some r.id) hkind.symm)⟩

/-- What is deleted is not updated. -/
theorem Passed.remoteKey_ne (haccepted : state.Accepted) (hdistinct : snap.Distinct)
    (h : Passed (sceneOf snap accessors state mode) ks s batch order rename plan)
    (ha : a ∈ plan.changes) (hdelete : a.action = .delete) (hb : b ∈ plan.changes)
    (hupdate : b.action = .update) : a.remoteKey ≠ b.remoteKey := by
  intro heq
  obtain ⟨r, hr, hkey⟩ := h.delete_abandoned haccepted ha hdelete
  obtain ⟨d, hd, -, id, hclaimed, hkey'⟩ := h.update_claimed haccepted hdistinct hb hupdate
  obtain ⟨hkind, hid⟩ := Prod.mk.inj (hkey.symm.trans (heq.trans hkey'))
  exact hr.unclaimed d hd hkind.symm (hclaimed.trans hid.symm)

/-- What is deleted is deleted once. -/
theorem Passed.pairwise_deletes (haccepted : state.Accepted) (hdistinct : snap.Distinct)
    (hkinds : (ks.map KindPlanner.kind).Nodup)
    (h : Passed (sceneOf snap accessors state mode) ks s batch order rename plan) :
    plan.changes.Pairwise fun a b =>
      a.action = .delete → b.action = .delete → a.remoteKey ≠ b.remoteKey := by
  have hnodup : (deletesOf plan.changes).Nodup :=
    h.perm_deletes.nodup_iff.mpr (nodup_deleted_tasks haccepted hdistinct hkinds)
  have hdeletes := List.pairwise_filter.mp (List.pairwise_map.mp hnodup)
  exact hdeletes.imp fun h ha hb => h (by simpa using ha) (by simpa using hb)

/-- **Creates are about no resource, and other changes of a plan that are about one resource are
rival updates**, over a snapshot with distinct identifiers and for an accepted document, in either
mode. -/
theorem pairwise_rivals_of_generatePlan {options : PassOptions} {now : Timestamp}
    (haccepted : state.Accepted) (hdistinct : snap.Distinct)
    (hkinds : (ks.map KindPlanner.kind).Nodup)
    (h : (generatePlan (.ofSnapshot snap) accessors (ks.map KindPlanner.toPlanner) state options
      now).1 = .ok plan) :
    (∀ e ∈ plan.changes, e.action = .create → e.resourceId = none)
    ∧ plan.changes.Pairwise fun a b =>
      a.resourceId ≠ none → a.remoteKey = b.remoteKey → a.Rival snap state b := by
  obtain ⟨-, s, batch, order, rename, hpassed⟩ := passed_of_generatePlan h
  refine ⟨fun e => hpassed.resourceId_create, ?_⟩
  refine (hpassed.pairwise_keys.and (hpassed.pairwise_deletes haccepted hdistinct hkinds)).imp_of_mem
    fun {a b} ha hb hapart hid hsame => ?_
  obtain ⟨hkeys, hdeletes⟩ := hapart
  have hid' : b.resourceId ≠ none := fun hnone => hid ((congrArg Prod.snd hsame).trans hnone)
  rcases haction : a.action with _ | _ | _
  · exact absurd (hpassed.resourceId_create ha haction) hid
  · rcases haction' : b.action with _ | _ | _
    · exact absurd (hpassed.resourceId_create hb haction') hid'
    · -- two updates are for declarations with different references
      obtain ⟨d, hd, href, id, hclaimed, hkey⟩ :=
        hpassed.update_claimed haccepted hdistinct ha haction
      obtain ⟨d', hd', href', id', hclaimed', hkey'⟩ :=
        hpassed.update_claimed haccepted hdistinct hb haction'
      obtain ⟨hkind, hresource⟩ := Prod.mk.inj hkey
      obtain ⟨hkind', hresource'⟩ := Prod.mk.inj hkey'
      refine ⟨haction, haction', d, hd, d', hd', hkind.symm, hkind'.symm, href, href', ?_,
        hclaimed.trans hresource.symm, hclaimed'.trans hresource'.symm⟩
      intro heq
      have hkind : a.kind = b.kind := congrArg Prod.fst hsame
      refine hkeys (by simp [haction]) (by simp [haction']) (Prod.ext hkind ?_)
      exact href.symm.trans (heq.trans href')
    · exact absurd hsame.symm
        (hpassed.remoteKey_ne haccepted hdistinct hb haction' ha haction)
  · rcases haction' : b.action with _ | _ | _
    · exact absurd (hpassed.resourceId_create hb haction') hid'
    · exact absurd hsame (hpassed.remoteKey_ne haccepted hdistinct ha haction hb haction')
    · exact absurd hsame (hdeletes haction haction')

end Plans

/-- An api, and one that nobody declares. -/
def soleOrders : Snapshot where
  resources := [
    { id := "a1", kind := "api", name := "Orders", labels := managementLabels "default" false },
    { id := "a2", kind := "api", name := "Legacy", labels := managementLabels "default" false }]

/-- The api is declared twice: by its name, and by its identifier under another name. -/
def doubleOrders : DesiredState where
  resources := [
    { kind := "api", ref := "orders", name := "Orders", description := .value "Takes orders" },
    { kind := "api", ref := "purchases", name := "Purchases", id := some "a1",
      description := .value "Takes purchases" }]

/-- A pass over them. -/
def doubling : Except Failure Plan :=
  (generatePlan (.ofSnapshot soleOrders) standardAccessors
    ([{ kind := "api" }].map KindPlanner.toPlanner) doubleOrders { mode := .sync } ⟨0, 0⟩).1

theorem accepted_doubleOrders : doubleOrders.Accepted := by decide +kernel

theorem distinct_soleOrders : soleOrders.Distinct := by decide

theorem pairwise_rivals_doubleOrders : doubleOrders.Accepted ∧ soleOrders.Distinct ∧ ∃ plan,
    doubling = .ok plan
    ∧ plan.changes.map (fun e => (e.id, e.resourceId)) = [("1:u:api:orders", some "a1"),
      ("2:u:api:purchases", some "a1"), ("3:d:api:Legacy", some "a2")]
    ∧ (∀ e ∈ plan.changes, e.action = .create → e.resourceId = none)
    ∧ plan.changes.Pairwise fun a b =>
      a.resourceId ≠ none → a.remoteKey = b.remoteKey → a.Rival soleOrders doubleOrders b := by
  obtain ⟨plan, hplan, hchanges⟩ := exists_ok_of_toOption
    (f := fun p : Plan => p.changes.map fun e => (e.id, e.resourceId)) (x := doubling)
    (b := [("1:u:api:orders", some "a1"), ("2:u:api:purchases", some "a1"),
      ("3:d:api:Legacy", some "a2")]) (by decide +kernel)
  exact ⟨accepted_doubleOrders, distinct_soleOrders, plan, hplan, hchanges,
    pairwise_rivals_of_generatePlan accepted_doubleOrders distinct_soleOrders (by decide) hplan⟩

/-- **An api that two declarations mean is updated twice.** -/
theorem not_nodup_remoteKeys_doubleOrders : doubleOrders.Accepted ∧ soleOrders.Distinct ∧ ∃ plan,
    doubling = .ok plan
    ∧ ¬((plan.changes.filter fun e => e.resourceId.isSome).map Change.remoteKey).Nodup := by
  obtain ⟨plan, hplan, hkeys⟩ := exists_ok_of_toOption
    (f := fun p : Plan => (p.changes.filter fun e => e.resourceId.isSome).map Change.remoteKey)
    (x := doubling) (b := [("api", some "a1"), ("api", some "a1"), ("api", some "a2")])
    (by decide +kernel)
  refine ⟨accepted_doubleOrders, distinct_soleOrders, plan, hplan, ?_⟩
  rw [hkeys]
  decide

end Reconcile
