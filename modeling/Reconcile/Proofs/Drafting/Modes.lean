import Reconcile.Proofs.Drafting.Twins

/-!
# Proofs/Drafting/Modes — the tasks of a pass with and without deletes

A pass that deletes goes through more namespaces, and has its deletes behind the declarations of
each.  Without the deletes its tasks are those of a pass that only applies (`Scene.filter_tasks`),
and a delete comes before a declaration of its kind only in an earlier namespace
(`Scene.scope_lt_of_takes`).  Main fact: `Scene.exists_renamed_of_run` — undisturbed by deletes,
both passes draft the same, up to identifiers.
-/

namespace Reconcile

/-- What has nothing for a member can do without it. -/
theorem flatMap_filter_eq {α β : Type} {f : α → List β} {p : α → Bool} {l : List α}
    (h : ∀ a ∈ l, p a = false → f a = []) : (l.filter p).flatMap f = l.flatMap f := by
  induction l with
  | nil => rfl
  | cons a rest ih =>
    have hrest := ih fun b hb => h b (List.mem_cons_of_mem a hb)
    rcases hp : p a with _ | _
    · rw [List.filter_cons_of_neg (by simp [hp]), hrest, List.flatMap_cons,
        h a List.mem_cons_self hp, List.nil_append]
    · rw [List.filter_cons_of_pos hp, List.flatMap_cons, hrest, List.flatMap_cons]

/-- What goes through the namespaces of a pass and has something only for those of declarations
goes through the latter. -/
theorem flatMap_planningScopes {β : Type} (s : DesiredState) (mode : Mode) {f : String → List β}
    (h : ∀ scope, scope ∉ s.scopes → f scope = []) :
    (planningScopes s mode).flatMap f = s.scopes.flatMap f := by
  have hsub : ∀ scope ∈ s.scopes, scope ∈ planningScopes s mode := by
    intro scope hscope
    obtain ⟨d, hd, rfl⟩ := s.mem_scopes.mp hscope
    exact scopeOf_mem_planningScopes hd
  have hscopes : (planningScopes s mode).filter (fun scope => s.scopes.contains scope)
      = s.scopes := by
    refine eq_of_ascending ((ascending_planningScopes s mode).filter _) (ascending_sortedSet _)
      fun scope => ?_
    rw [List.mem_filter, List.contains_iff_mem]
    exact ⟨fun hmem => hmem.2, fun hmem => ⟨hsub scope hmem, hmem⟩⟩
  rw [← flatMap_filter_eq (p := fun scope => s.scopes.contains scope), hscopes]
  intro scope _ hnot
  refine h scope fun hmem => ?_
  rw [List.contains_iff_mem.mpr hmem] at hnot
  exact absurd hnot (by simp)

namespace Scene

variable {c : Scene} {k : KindPlanner} {scope : String} {s s' : Sketch} {u t : Task}
  {ks : List KindPlanner}

/-- The same pass in another mode. -/
def inMode (c : Scene) (mode : Mode) : Scene := { c with mode := mode }

/-- What comes of tasks does not depend on the mode. -/
theorem run_inMode (mode : Mode) (ts : List Task) (s : Sketch) :
    (c.inMode mode).run ts s = c.run ts s := by
  have hstep : (c.inMode mode).step = c.step := by
    funext s t
    unfold step
    cases t <;> rfl
  unfold run
  rw [hstep]

/-! ## Where the tasks differ -/

/-- The tasks of a planner for the declarations of a namespace. -/
def declaredTasksOf (c : Scene) (scope : String) (k : KindPlanner) : List Task :=
  if c.snapshot.covers k.kind then (c.desired.inScope k.kind scope).map (.declared k scope) else []

theorem filter_tasksOf (mode : Mode) :
    ((c.inMode mode).tasksOf scope k).filter Task.isDeclared = c.declaredTasksOf scope k := by
  have hdeclared : ∀ ds : List Declaration, (ds.map (Task.declared k scope)).filter Task.isDeclared
      = ds.map (Task.declared k scope) := fun ds =>
    List.filter_eq_self.mpr fun t ht => by
      obtain ⟨d, -, rfl⟩ := List.mem_map.mp ht
      rfl
  have horphans : ∀ rs : List Resource, (rs.map (Task.orphan k scope)).filter Task.isDeclared
      = [] := fun rs =>
    List.filter_eq_nil_iff.mpr fun t ht => by
      obtain ⟨r, -, rfl⟩ := List.mem_map.mp ht
      simp [Task.isDeclared]
  unfold tasksOf declaredTasksOf inMode
  dsimp only
  split
  · rw [List.filter_append, hdeclared]
    cases mode with
    | apply => rw [List.filter_nil, List.append_nil]
    | sync => rw [horphans, List.append_nil]
  · rfl

/-- **Without its deletes, a pass has the same tasks in either mode.** -/
theorem filter_tasks (c : Scene) (ks : List KindPlanner) (mode : Mode) :
    ((c.inMode mode).tasks ks).filter Task.isDeclared
      = c.desired.scopes.flatMap fun scope => ks.flatMap (c.declaredTasksOf scope) := by
  have hnone : ∀ scope, scope ∉ c.desired.scopes →
      (ks.flatMap fun k => c.declaredTasksOf scope k) = [] := by
    intro scope hscope
    refine List.flatMap_eq_nil_iff.mpr fun k _ => ?_
    have hempty : c.desired.inScope k.kind scope = [] := by
      refine List.eq_nil_iff_forall_not_mem.mpr fun d hd => hscope ?_
      obtain ⟨hmem, -, hin⟩ := c.desired.mem_inScope.mp hd
      exact c.desired.mem_scopes.mpr ⟨d, hmem, hin⟩
    rw [declaredTasksOf, hempty]
    exact ite_self _
  unfold tasks
  rw [List.filter_flatMap, ← flatMap_planningScopes c.desired mode hnone]
  refine List.flatMap_congr fun scope _ => ?_
  rw [List.filter_flatMap]
  exact List.flatMap_congr fun k _ => filter_tasksOf mode

theorem tasks_apply (c : Scene) (ks : List KindPlanner) :
    (c.inMode .apply).tasks ks = ((c.inMode .sync).tasks ks).filter Task.isDeclared := by
  rw [filter_tasks c ks .sync, ← filter_tasks c ks .apply]
  refine (List.filter_eq_self.mpr fun t ht => ?_).symm
  obtain ⟨scope, -, k, -, hmem⟩ := mem_tasks.mp ht
  obtain ⟨d, -, rfl⟩ := eq_declared_of_mem rfl hmem
  rfl

theorem scope_of_mem_tasksOf (h : t ∈ c.tasksOf scope k) : t.scope = scope ∧ t.key.1 = k.kind := by
  obtain ⟨-, ⟨d, -, rfl⟩ | ⟨-, r, -, rfl⟩⟩ := mem_tasksOf.mp h <;> exact ⟨rfl, rfl⟩

/-- **A delete comes before a declaration with its kind and reference only in an earlier
namespace.** -/
theorem scope_lt_of_takes (c : Scene) (hkinds : (ks.map KindPlanner.kind).Nodup) :
    (c.tasks ks).Pairwise fun u t => u.Takes t → u.scope < t.scope := by
  refine List.pairwise_flatMap.mpr ⟨fun scope _ => List.pairwise_flatMap.mpr ⟨fun k _ => ?_, ?_⟩,
    ?_⟩
  · -- a planner has its deletes in a namespace behind the declarations there
    unfold tasksOf
    split
    · refine List.pairwise_append.mpr ⟨?_, ?_, ?_⟩
      · refine List.pairwise_map.mpr (List.pairwise_of_forall fun d d' htakes => ?_)
        exact absurd htakes.1 (by simp [Task.isDeclared])
      · cases c.mode with
        | apply => exact List.Pairwise.nil
        | sync =>
          refine List.pairwise_map.mpr (List.pairwise_of_forall fun r r' htakes => ?_)
          exact absurd htakes.2.1 (by simp [Task.isDeclared])
      · intro u hu t _ htakes
        obtain ⟨d, -, rfl⟩ := List.mem_map.mp hu
        exact absurd htakes.1 (by simp [Task.isDeclared])
    · exact List.Pairwise.nil
  · refine (List.pairwise_map.mp hkinds).imp fun {k k'} hne u hu t ht htakes => ?_
    have hkind := congrArg Prod.fst htakes.2.2
    rw [(scope_of_mem_tasksOf hu).2, (scope_of_mem_tasksOf ht).2] at hkind
    exact absurd hkind.symm hne
  · refine (ascending_planningScopes c.desired c.mode).imp fun {scope scope'} hlt u hu t ht _ => ?_
    obtain ⟨k, -, hu⟩ := List.mem_flatMap.mp hu
    obtain ⟨k', -, ht⟩ := List.mem_flatMap.mp ht
    rwa [(scope_of_mem_tasksOf hu).1, (scope_of_mem_tasksOf ht).1]

/-- Tasks of earlier namespaces come first. -/
theorem pairwise_scope (c : Scene) (ks : List KindPlanner) :
    (c.tasks ks).Pairwise fun u t => ¬t.scope < u.scope := by
  refine List.pairwise_flatMap.mpr ⟨fun scope _ => ?_, ?_⟩
  · refine List.pairwise_of_forall_mem_list fun u hu t ht => ?_
    obtain ⟨k, -, hu⟩ := List.mem_flatMap.mp hu
    obtain ⟨k', -, ht⟩ := List.mem_flatMap.mp ht
    rw [(scope_of_mem_tasksOf hu).1, (scope_of_mem_tasksOf ht).1]
    exact String.lt_irrefl scope
  · refine (ascending_planningScopes c.desired c.mode).imp fun {scope scope'} hlt u hu t ht => ?_
    obtain ⟨k, -, hu⟩ := List.mem_flatMap.mp hu
    obtain ⟨k', -, ht⟩ := List.mem_flatMap.mp ht
    rw [(scope_of_mem_tasksOf hu).1, (scope_of_mem_tasksOf ht).1]
    exact String.lt_asymm hlt

/-- **A declaration whose reference a delete of an earlier namespace takes has no create or
update.** -/
theorem forall_key_ne_of_scope_lt
    (hnodup : (((c.inMode .apply).tasks ks).map Task.key).Nodup)
    (hrun : (c.inMode .sync).run ((c.inMode .sync).tasks ks) {} = .ok s)
    (hlawful : s.violations = []) (hu : u ∈ (c.inMode .sync).tasks ks)
    (ht : t ∈ (c.inMode .sync).tasks ks) (htakes : u.Takes t) (hlt : u.scope < t.scope) :
    ∀ b ∈ keptOf s.changes, b.key ≠ t.key := by
  rw [tasks_apply] at hnodup
  have hscope := pairwise_scope (c.inMode .sync) ks
  obtain ⟨before, behind, htasks⟩ := List.append_of_mem ht
  rw [htasks] at hnodup hrun hu hscope
  obtain ⟨hsame, -⟩ := List.pairwise_cons.mp (List.pairwise_append.mp hscope).2.1
  rcases List.mem_append.mp hu with hbefore | hrest
  · exact forall_key_ne_of_taken hnodup hrun hlawful hbefore htakes
  · rcases List.mem_cons.mp hrest with rfl | hbehind
    · exact absurd hlt (String.lt_irrefl _)
    · exact absurd hlt (hsame u hbehind)

/-- **Undisturbed by deletes, a pass drafts the same in both modes**, up to identifiers. -/
theorem exists_renamed_of_run
    (hrun : (c.inMode .apply).run ((c.inMode .apply).tasks ks) {} = .ok s)
    (hrun' : (c.inMode .sync).run ((c.inMode .sync).tasks ks) {} = .ok s')
    (hnodup : (s.changes.map (·.id)).Nodup) (hnodup' : (s'.changes.map (·.id)).Nodup)
    (hfree : ((c.inMode .sync).tasks ks).Pairwise fun u t =>
      u.Takes t → ∀ b ∈ s.changes, b.key ≠ t.key) :
    ∃ move : Equiv.Perm String, keptOf s'.changes = s.changes.map (Change.renamed move) := by
  rw [run_inMode, tasks_apply] at hrun
  rw [run_inMode] at hrun'
  have htwins : Twins s.changes (keptOf s'.changes) :=
    twins_of_run Twins.nil hrun hrun' (by simp) hfree
  exact htwins.exists_renamed hnodup (hnodup'.sublist (List.filter_sublist.map _))

end Scene

end Reconcile
