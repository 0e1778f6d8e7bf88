import Reconcile.Proofs.Accepted
import Reconcile.Proofs.Drafting.Outcomes
import Reconcile.Proofs.Pass.Protection

/-!
# Proofs/Pass/Matching — a plan settles every declaration, once

A plan that only applies has one create for every declaration of something new, one update for every
declaration that its resource does not agree with, and no other change (`Plan.Settles`).  Main fact:
`settles_of_generatePlan`.

A declaration is matched twice: to find its identifier, in the listing of all namespaces, and to plan
for it, in the listing of its own.  Both find what it means (`target_sceneOf`).
-/

namespace Reconcile

/-! ## Matching -/

variable {snap : Snapshot} {state : DesiredState} {d : Declaration} {r : Resource}
  {k : KindPlanner} {ks : List KindPlanner}

namespace Scene

variable {c : Scene} {scope : String}

/-- A declaration with an identifier is matched to the resource with that identifier, in whichever
namespace it is. -/
theorem target_of_id (hdistinct : c.snapshot.Distinct) {id : String} (hid : d.id = some id) :
    c.target k scope d = c.snapshot.find? k.kind id := by
  have hmatch : isMatch d = fun r => r.id == id := by
    funext r
    rw [isMatch, hid]
  rw [target, hmatch, hid, Option.bind_some]
  rcases hfound : (c.snapshot.managedIn k.kind scope).find? (fun r => r.id == id) with _ | r <;>
    rw [hfound]
  · exact Option.none_or
  · obtain ⟨hmem, hkind⟩ := Snapshot.of_mem_managedIn (List.mem_of_find?_eq_some hfound)
    have hr : r.id = id := by simpa using List.find?_some hfound
    rw [Option.some_or, ← hr, ← hkind, hdistinct.find?_of_mem hmem]

/-- A declaration without one is matched to the first managed resource with its name. -/
theorem target_of_name (hscope : scope ≠ wildcard) (hid : d.id = none) :
    c.target k scope d = c.snapshot.named? k.kind d.name scope := by
  have hmatch : isMatch d = fun r => r.name == d.name := by
    funext r
    rw [isMatch, hid]
  rw [target, hmatch, hid, Option.bind_none, Option.or_none, Snapshot.find?_managedIn hscope]

end Scene

/-- **Planning matches a declaration to what it means.** -/
theorem target_sceneOf {accessors : Accessors Declaration} {mode : Mode}
    (haccepted : state.Accepted) (hdistinct : snap.Distinct) (hd : d ∈ state.resources)
    (hcovers : snap.covers d.kind = true) (hk : k.kind = d.kind) :
    (sceneOf snap accessors state mode).target k (state.scopeOf d) (state.identify snap d)
      = state.meant? snap d := by
  have hid := DesiredState.id_identify (s := state) hcovers
  unfold DesiredState.meant?
  rcases hdeclared : d.id with _ | id <;> rw [hdeclared] at hid
  · rw [Option.none_or] at hid
    rcases hnamed : snap.named? d.kind d.name (state.scopeOf d) with _ | r <;> rw [hnamed] at hid
    · rw [Scene.target_of_name (haccepted.scopeOf_ne_wildcard hd) hid,
        DesiredState.name_identify, hk]
      exact hnamed
    · obtain ⟨hmem, hkind⟩ := Snapshot.of_named? hnamed
      rw [Scene.target_of_id hdistinct hid, hk, ← hkind]
      exact hdistinct.find?_of_mem hmem
  · rw [Option.some_or] at hid
    rw [Scene.target_of_id hdistinct hid, hk]
    rfl

/-! ## What a plan has to do -/

/-- The changes of a plan that are about a declaration: those with its kind and reference. -/
def Plan.changesFor (plan : Plan) (d : Declaration) : List Change :=
  plan.changes.filter fun e => e.key = (d.kind, d.ref)

/-- A declaration does not agree with a resource: the comparison reports an update, or another
protection is stated. -/
def KindPlanner.Differs (k : KindPlanner) (d : Declaration) (r : Resource) : Prop :=
  (k.compare d r).1 = true ∨ ∃ wanted, d.protect = some wanted ∧ wanted ≠ r.isProtected

/-- **A plan settles a desired state**: it has exactly the changes that the declarations need. -/
structure Plan.Settles (plan : Plan) (snap : Snapshot) (state : DesiredState)
    (ks : List KindPlanner) : Prop where
  missing : ∀ d ∈ state.resources, snap.covers d.kind = true → state.meant? snap d = none →
    ∃ e, plan.changesFor d = [e] ∧ e.action = .create ∧ e.scope = state.scopeOf d
  different : ∀ d ∈ state.resources, snap.covers d.kind = true →
    ∀ r, state.meant? snap d = some r → ∀ k ∈ ks, k.kind = d.kind →
    k.Differs (state.identify snap d) r →
    ∃ e, plan.changesFor d = [e] ∧ e.action = .update ∧ e.resourceId = some r.id
  agreeing : ∀ d ∈ state.resources, snap.covers d.kind = true →
    ∀ r, state.meant? snap d = some r → ∀ k ∈ ks, k.kind = d.kind →
    ¬k.Differs (state.identify snap d) r → plan.changesFor d = []
  unknown : ∀ d ∈ state.resources, snap.covers d.kind = false → plan.changesFor d = []
  nothingElse : ∀ e ∈ plan.changes, ∃ d ∈ state.resources, e ∈ plan.changesFor d

theorem KindPlanner.needsChange_iff : k.needsChange d r = true ↔ k.Differs d r := by
  unfold needsChange Differs
  rw [Bool.or_eq_true, Option.isSome_iff_exists]
  refine or_congr_right ⟨?_, ?_⟩
  · rintro ⟨f, hf⟩
    obtain ⟨wanted, hwanted, hne, -⟩ := flipFor_eq_some_iff.mp hf
    exact ⟨wanted, hwanted, hne⟩
  · rintro ⟨wanted, hwanted, hne⟩
    exact ⟨_, flipFor_eq_some_iff.mpr ⟨wanted, hwanted, hne, rfl⟩⟩

/-! ## What a plan does -/

section Plans

variable {accessors : Accessors Declaration} {s : Sketch} {batch plan : Plan}
  {order : List String} {rename : String → String} {t : Task} {e b : Change}

namespace Passed

variable {c : Scene}

/-- **A plan has the outcomes of its tasks**, in some order. -/
theorem perm_outcomes (h : Passed c ks s batch order rename plan)
    (hnodup : ((c.tasks ks).map Task.key).Nodup) :
    (plan.changes.map Change.core).Perm ((c.tasks ks).filterMap c.outcome?) := by
  have hrun := Scene.core_of_run hnodup (by simp) h.run h.lawful
  rw [List.map_nil, List.nil_append] at hrun
  exact hrun ▸ h.perm_core

/-- The changes of a plan have distinct kinds and references. -/
theorem nodup_keys (h : Passed c ks s batch order rename plan)
    (hnodup : ((c.tasks ks).map Task.key).Nodup) : (plan.changes.map Change.key).Nodup := by
  have hcore : plan.changes.map Change.key = (plan.changes.map Change.core).map Change.key := by
    rw [List.map_map]
    rfl
  rw [hcore, ((h.perm_outcomes hnodup).map Change.key).nodup_iff]
  exact Scene.nodup_keys_outcomes hnodup

/-- A task with an outcome is the reason for the one change about its declaration. -/
theorem changesFor_of_some (h : Passed c ks s batch order rename plan)
    (hnodup : ((c.tasks ks).map Task.key).Nodup) (ht : t ∈ c.tasks ks)
    (hkey : t.key = (d.kind, d.ref)) (houtcome : c.outcome? t = some b) :
    ∃ e, plan.changesFor d = [e] ∧ e.core = b := by
  have hmem : b ∈ plan.changes.map Change.core :=
    (h.perm_outcomes hnodup).mem_iff.mpr (List.mem_filterMap.mpr ⟨t, ht, houtcome⟩)
  obtain ⟨e, he, rfl⟩ := List.mem_map.mp hmem
  have hsame : e.key = (d.kind, d.ref) := (Scene.key_of_outcome? houtcome).trans hkey
  refine ⟨e, ?_, rfl⟩
  rw [Plan.changesFor, ← hsame]
  exact filter_eq_singleton (h.nodup_keys hnodup) he

/-- Every change of a plan is the outcome of a task with its kind and reference. -/
theorem exists_task_of_mem (h : Passed c ks s batch order rename plan)
    (hnodup : ((c.tasks ks).map Task.key).Nodup) (he : e ∈ plan.changes) :
    ∃ t ∈ c.tasks ks, c.outcome? t = some e.core ∧ e.key = t.key := by
  obtain ⟨t, ht, houtcome⟩ := List.mem_filterMap.mp
    ((h.perm_outcomes hnodup).mem_iff.mp (List.mem_map_of_mem he))
  have hkey : e.core.key = t.key := Scene.key_of_outcome? houtcome
  exact ⟨t, ht, houtcome, hkey⟩

/-- Without an outcome there is no change. -/
theorem changesFor_of_none (h : Passed c ks s batch order rename plan)
    (hnodup : ((c.tasks ks).map Task.key).Nodup)
    (hnone : ∀ t ∈ c.tasks ks, t.key = (d.kind, d.ref) → c.outcome? t = none) :
    plan.changesFor d = [] := by
  refine List.filter_eq_nil_iff.mpr fun e he hsame => ?_
  obtain ⟨t, ht, houtcome, hkey⟩ := h.exists_task_of_mem hnodup he
  have hnothing := hnone t ht (hkey.symm.trans (by simpa using hsame))
  exact absurd (houtcome.symm.trans hnothing) (by simp)

end Passed

/-! ## Plans that only apply -/

/-- The tasks of an accepted document have distinct kinds and references. -/
theorem nodup_keys_sceneOf (haccepted : state.Accepted) (hkinds : (ks.map KindPlanner.kind).Nodup) :
    (((sceneOf snap accessors state .apply).tasks ks).map Task.key).Nodup := by
  refine Scene.nodup_keys_tasks rfl hkinds ?_
  have hsame : (state.identified snap).resources.map (fun d => (d.kind, d.ref))
      = state.resources.map fun d => (d.kind, d.ref) := by
    simp [DesiredState.identified]
  exact hsame ▸ haccepted.nodup

/-- Every declaration of a known kind has its task. -/
theorem declared_mem_tasks {mode : Mode} (hd : d ∈ state.resources)
    (hcovers : snap.covers d.kind = true) (hk : k ∈ ks) (hkind : k.kind = d.kind) :
    .declared k (state.scopeOf d) (state.identify snap d)
      ∈ (sceneOf snap accessors state mode).tasks ks := by
  have hscope : state.scopeOf d ∈ planningScopes (state.identified snap) mode := by
    rw [DesiredState.planningScopes_identified]
    exact scopeOf_mem_planningScopes hd
  have hdeclared : state.identify snap d
      ∈ (state.identified snap).inScope k.kind (state.scopeOf d) := by
    rw [DesiredState.inScope_identified]
    exact List.mem_map_of_mem (state.mem_inScope.mpr ⟨hd, hkind.symm, rfl⟩)
  exact Scene.mem_tasks.mpr ⟨_, hscope, k, hk,
    Scene.mem_tasksOf.mpr ⟨hkind ▸ hcovers, .inl ⟨_, hdeclared, rfl⟩⟩⟩

/-- Every task is one for a declaration of a known kind. -/
theorem exists_declared_of_mem_tasks (ht : t ∈ (sceneOf snap accessors state .apply).tasks ks) :
    ∃ d ∈ state.resources, snap.covers d.kind = true ∧ t.key = (d.kind, d.ref) := by
  obtain ⟨scope, -, k, -, hof⟩ := Scene.mem_tasks.mp ht
  obtain ⟨d', hd', rfl⟩ := Scene.eq_declared_of_mem rfl hof
  have hkey := Scene.key_declared_of_mem hd'
  obtain ⟨-, d, hd, rfl, -, -, hcovers⟩ := exists_declaration_of_mem_tasks ht
  rw [DesiredState.kind_identify, DesiredState.ref_identify] at hkey
  exact ⟨d, hd, hcovers, hkey⟩

/-- **A plan that only applies settles an accepted document**, over a snapshot with distinct
identifiers and with one planner for every declared kind. -/
theorem settles_of_generatePlan {options : PassOptions} {now : Timestamp}
    (haccepted : state.Accepted) (hdistinct : snap.Distinct)
    (hkinds : (ks.map KindPlanner.kind).Nodup)
    (hplanned : ∀ d ∈ state.resources, ∃ k ∈ ks, k.kind = d.kind) (hmode : options.mode = .apply)
    (h : (generatePlan (.ofSnapshot snap) accessors (ks.map KindPlanner.toPlanner) state options
      now).1 = .ok plan) : plan.Settles snap state ks := by
  obtain ⟨-, s, batch, order, rename, hpassed⟩ := passed_of_generatePlan h
  rw [hmode] at hpassed
  have hnodup : (((sceneOf snap accessors state .apply).tasks ks).map Task.key).Nodup :=
    nodup_keys_sceneOf haccepted hkinds
  have hkey : ∀ d k, k.kind = d.kind →
      (Task.declared k (state.scopeOf d) (state.identify snap d)).key = (d.kind, d.ref) :=
    fun d k hkind => Prod.ext hkind DesiredState.ref_identify
  have htarget : ∀ d ∈ state.resources, snap.covers d.kind = true → ∀ k, k.kind = d.kind →
      (sceneOf snap accessors state .apply).target k (state.scopeOf d) (state.identify snap d)
        = state.meant? snap d :=
    fun d hd hcovers k hkind => target_sceneOf haccepted hdistinct hd hcovers hkind
  constructor
  case missing =>
    intro d hd hcovers hmeant
    obtain ⟨k, hk, hkind⟩ := hplanned d hd
    obtain ⟨e, he, hcore⟩ := hpassed.changesFor_of_some hnodup
      (declared_mem_tasks hd hcovers hk hkind) (hkey d k hkind)
      (by rw [Scene.outcome?, htarget d hd hcovers k hkind, hmeant])
    exact ⟨e, he, congrArg Change.action hcore, congrArg Change.scope hcore⟩
  case different =>
    intro d hd hcovers r hmeant k hk hkind hdiffers
    obtain ⟨e, he, hcore⟩ := hpassed.changesFor_of_some hnodup
      (declared_mem_tasks hd hcovers hk hkind) (hkey d k hkind)
      (by rw [Scene.outcome?, htarget d hd hcovers k hkind, hmeant]
          exact if_pos (KindPlanner.needsChange_iff.mpr hdiffers))
    exact ⟨e, he, congrArg Change.action hcore, congrArg Change.resourceId hcore⟩
  case agreeing =>
    intro d hd hcovers r hmeant k hk hkind hagrees
    refine hpassed.changesFor_of_none hnodup fun t ht hsame => ?_
    obtain rfl := List.inj_on_of_nodup_map hnodup ht (declared_mem_tasks hd hcovers hk hkind)
      (hsame.trans (hkey d k hkind).symm)
    rw [Scene.outcome?, htarget d hd hcovers k hkind, hmeant]
    exact if_neg fun hneeds => hagrees (KindPlanner.needsChange_iff.mp hneeds)
  case unknown =>
    intro d hd hunknown
    refine hpassed.changesFor_of_none hnodup fun t ht hsame => ?_
    obtain ⟨d', -, hcovers, hkey'⟩ := exists_declared_of_mem_tasks ht
    have hkind : d'.kind = d.kind := congrArg Prod.fst (hkey'.symm.trans hsame)
    exact absurd (hkind ▸ hcovers) (by simp [hunknown])
  case nothingElse =>
    intro e he
    obtain ⟨t, ht, -, hsame⟩ := hpassed.exists_task_of_mem hnodup he
    obtain ⟨d, hd, -, hkey'⟩ := exists_declared_of_mem_tasks ht
    exact ⟨d, hd, List.mem_filter.mpr ⟨he, by simpa using hsame.trans hkey'⟩⟩

end Plans

/-- Two apis in two namespaces, one of them protected. -/
def apis : Snapshot where
  configured := some (.ofList ["api", "portal"])
  resources := [
    { id := "a1", kind := "api", name := "Orders", labels := managementLabels "default" false },
    { id := "a2", kind := "api", name := "Billing", labels := managementLabels "finance" true }]

/-- An api as it is, one that is taken over from its namespace and opened, a new portal, and a topic
that the snapshot knows nothing about. -/
def takenOver : DesiredState where
  resources := [
    { kind := "api", ref := "orders", name := "Orders" },
    { kind := "topic", ref := "events", name := "Events" },
    { kind := "portal", ref := "docs", name := "Docs" },
    { kind := "api", ref := "billing", name := "Payments", id := some "a2", protect := some false }]

theorem settles_takenOver : takenOver.Accepted ∧ apis.Distinct ∧ ∃ plan,
    (generatePlan (.ofSnapshot apis) standardAccessors
      ([{ kind := "portal" }, { kind := "api" }, { kind := "topic" }].map KindPlanner.toPlanner)
      takenOver {} ⟨0, 0⟩).1 = .ok plan
    ∧ plan.changes.map (fun e => (e.id, e.resourceId))
      = [("1:c:portal:docs", none), ("2:u:api:billing", some "a2")]
    ∧ plan.Settles apis takenOver [{ kind := "portal" }, { kind := "api" }, { kind := "topic" }] := by
  have haccepted : takenOver.Accepted := by
    unfold DesiredState.Accepted
    decide +kernel
  have hdistinct : apis.Distinct := by
    unfold Snapshot.Distinct
    decide
  have hplanned : ∀ d ∈ takenOver.resources, ∃ k ∈
      ([{ kind := "portal" }, { kind := "api" }, { kind := "topic" }] : List KindPlanner),
      k.kind = d.kind := by
    simp [takenOver]
  obtain ⟨plan, hplan, hchanges⟩ := exists_ok_of_toOption
    (f := fun p : Plan => p.changes.map fun e => (e.id, e.resourceId))
    (x := (generatePlan (.ofSnapshot apis) standardAccessors
      ([{ kind := "portal" }, { kind := "api" }, { kind := "topic" }].map KindPlanner.toPlanner)
      takenOver {} ⟨0, 0⟩).1)
    (b := [("1:c:portal:docs", none), ("2:u:api:billing", some "a2")]) (by decide +kernel)
  exact ⟨haccepted, hdistinct, plan, hplan, hchanges,
    settles_of_generatePlan haccepted hdistinct (by simp) hplanned rfl hplan⟩

end Reconcile
