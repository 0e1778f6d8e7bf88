import Reconcile.Proofs.Drafting.Tasks
import Reconcile.Proofs.Links

/-!
# Proofs/Drafting/Outcomes — what a task does does not depend on the draft

A task that finds no change for its kind and reference plans a change that does always the same
(`Scene.outcome?`), whatever has been drafted before.  Main fact: `Scene.core_of_run` — tasks with
distinct kinds and references that violate nothing draft their outcomes, one after the other.
-/

namespace Reconcile

/-- The kind and the reference of a change. -/
def Change.key (e : Change) : String × String := (e.kind, e.ref)

/-- Changes that do the same have one action, one kind and reference, and one namespace. -/
theorem Change.parts_of_core_eq {a b : Change} (h : a.core = b.core) :
    a.action = b.action ∧ a.key = b.key ∧ a.scope = b.scope := by
  change a.core.action = b.core.action ∧ a.core.key = b.core.key ∧ a.core.scope = b.core.scope
  rw [h]
  exact ⟨rfl, rfl, rfl⟩

/-- The kind and the reference of what a task plans. -/
def Task.key : Task → String × String
  | .declared k _ d => (k.kind, d.ref)
  | .orphan k _ r => (k.kind, r.name)

namespace Scene

/-- **What the change planned by a task does**, if the task plans one. -/
def outcome? (c : Scene) : Task → Option Change
  | .declared k scope d =>
    match c.target k scope d with
    | some r => if k.needsChange d r then some (c.updateChange k scope d r {}).core else none
    | none => some (c.createChange k scope d {}).core
  | .orphan k scope r => some (deleteChange k scope r {}).core

variable {c : Scene} {k : KindPlanner} {scope : String} {d : Declaration} {ks : List KindPlanner}
  {s s' : Sketch} {t : Task} {ts : List Task} {e : Change}

theorem key_of_outcome? (h : c.outcome? t = some e) : e.key = t.key := by
  rcases t with ⟨k, scope, d⟩ | ⟨k, scope, r⟩
  · rw [outcome?] at h
    split at h
    · split at h
      · obtain rfl := Option.some.inj h
        rfl
      · exact absurd h (by simp)
    · obtain rfl := Option.some.inj h
      rfl
  · obtain rfl := Option.some.inj h
    rfl

/-- Distinct tasks have distinct outcomes. -/
theorem nodup_keys_outcomes (h : (ts.map Task.key).Nodup) :
    ((ts.filterMap c.outcome?).map Change.key).Nodup := by
  refine List.pairwise_map.mpr (List.pairwise_filterMap.mpr ?_)
  refine (List.pairwise_map.mp h).imp fun {t t'} hne e he e' he' heq => hne ?_
  rw [← key_of_outcome? he, ← key_of_outcome? he', heq]

/-! ## One task -/

/-- A planned change does what its task is about. -/
theorem outcome?_of_planned (h : c.verdict s t = .planned e) : c.outcome? t = some e.core := by
  rcases planned_cases h with ⟨k, scope, d, r, rfl, htarget, hneeds, -, rfl⟩
    | ⟨k, scope, d, rfl, htarget, rfl⟩ | ⟨k, scope, r, rfl, -, rfl⟩
  · rw [outcome?, htarget]
    dsimp only
    rw [if_pos hneeds]
    rfl
  · rw [outcome?, htarget]
    rfl
  · rfl

/-- Where there is no change for its kind and reference yet, a settled task has nothing to do. -/
theorem outcome?_of_settled (hfresh : ∀ e ∈ s.changes, e.key ≠ t.key)
    (h : c.verdict s t = .settled) : c.outcome? t = none := by
  rcases t with ⟨k, scope, d⟩ | ⟨k, scope, r⟩
  · rw [verdict] at h
    split at h
    · next hany =>
      obtain ⟨e, he, hsame⟩ := List.any_eq_true.mp hany
      simp only [Bool.and_eq_true, beq_iff_eq] at hsame
      exact absurd (Prod.ext hsame.1 hsame.2) (hfresh e he)
    · rcases htarget : c.target k scope d with _ | r <;> rw [htarget] at h
      · dsimp only [createVerdict] at h
        split at h <;> exact absurd h (by simp)
      · dsimp only [updateVerdict] at h
        split at h
        · exact absurd h (Verdict.unless_ne_settled (by simp))
        · next hneeds =>
          rw [outcome?, htarget]
          exact if_neg hneeds
  · exact absurd h (Verdict.unless_ne_settled (by simp))

/-- **A task adds its outcome** to the draft, unless it violates something. -/
theorem core_of_step (hfresh : ∀ e ∈ s.changes, e.key ≠ t.key) (h : c.step s t = .ok s')
    (hlawful : s'.violations = []) : s'.changes.map Change.core
      = s.changes.map Change.core ++ (c.outcome? t).toList
    ∧ ∀ e ∈ s'.changes, e ∈ s.changes ∨ e.key = t.key := by
  rcases step_cases h with ⟨hsettled, rfl⟩ | ⟨v, -, rfl⟩ | ⟨e, hplanned, rfl⟩
  · rw [outcome?_of_settled hfresh hsettled]
    exact ⟨by simp, fun e he => .inl he⟩
  · exact absurd hlawful (by simp)
  · have houtcome := outcome?_of_planned hplanned
    have hkey : e.core.key = t.key := key_of_outcome? houtcome
    rw [houtcome]
    refine ⟨by simp, fun e' he' => ?_⟩
    rcases List.mem_append.mp he' with he' | he'
    · exact .inl he'
    · obtain rfl := List.mem_singleton.mp he'
      exact .inr hkey

/-- Violations stay in the draft. -/
theorem violations_step (h : c.step s t = .ok s') (hlawful : s'.violations = []) :
    s.violations = [] := by
  rcases step_cases h with ⟨-, rfl⟩ | ⟨v, -, rfl⟩ | ⟨e, -, rfl⟩
  · exact hlawful
  · exact absurd hlawful (by simp)
  · exact hlawful

/-! ## A run -/

theorem violations_run (h : c.run ts s = .ok s') (hlawful : s'.violations = []) :
    s.violations = [] :=
  run_induction (I := fun s' => s'.violations = [] → s.violations = [])
    (fun _ _ _ _ ih hstep hlawful => ih (violations_step hstep hlawful)) (fun h => h) h hlawful

/-- **Tasks draft their outcomes**, if they have distinct kinds and references and violate
nothing. -/
theorem core_of_run (hnodup : (ts.map Task.key).Nodup)
    (hfresh : ∀ t ∈ ts, ∀ e ∈ s.changes, e.key ≠ t.key) (h : c.run ts s = .ok s')
    (hlawful : s'.violations = []) :
    s'.changes.map Change.core = s.changes.map Change.core ++ ts.filterMap c.outcome? := by
  induction ts generalizing s with
  | nil =>
    obtain rfl := Except.ok.inj h
    simp
  | cons t rest ih =>
    obtain ⟨s₁, hstep, hrest⟩ := run_cons_ok h
    rw [List.map_cons, List.nodup_cons] at hnodup
    obtain ⟨hcore, hkeys⟩ := core_of_step (hfresh t List.mem_cons_self) hstep
      (violations_run hrest hlawful)
    have hfresh₁ : ∀ u ∈ rest, ∀ e ∈ s₁.changes, e.key ≠ u.key := by
      intro u hu e he
      rcases hkeys e he with he | hkey
      · exact hfresh u (.tail _ hu) e he
      · exact fun heq => hnodup.1 (hkey ▸ heq ▸ List.mem_map_of_mem hu)
    rw [ih hnodup.2 hfresh₁ hrest, hcore, List.append_assoc, List.filterMap_cons]
    rcases c.outcome? t with _ | e <;> rfl

/-! ## Distinct tasks -/

/-- Without deletes, every task is about a declaration. -/
theorem eq_declared_of_mem (hmode : c.mode = .apply) (ht : t ∈ c.tasksOf scope k) :
    ∃ d ∈ c.desired.inScope k.kind scope, t = .declared k scope d := by
  obtain ⟨-, h | ⟨hsync, -⟩⟩ := mem_tasksOf.mp ht
  · exact h
  · exact absurd (hmode.symm.trans hsync) (by simp)

/-- A task for a declaration has its kind and its reference. -/
theorem key_declared_of_mem (hd : d ∈ c.desired.inScope k.kind scope) :
    (Task.declared k scope d).key = (d.kind, d.ref) :=
  Prod.ext (c.desired.mem_inScope.mp hd).2.1.symm rfl

/-- The tasks of a planner in a namespace are as distinct as the declarations. -/
theorem nodup_keys_tasksOf (hmode : c.mode = .apply)
    (hkeys : (c.desired.resources.map fun d => (d.kind, d.ref)).Nodup) :
    ((c.tasksOf scope k).map Task.key).Nodup := by
  unfold tasksOf
  split
  · rw [hmode, List.append_nil, List.map_map]
    have hsame : (c.desired.inScope k.kind scope).map (Task.key ∘ .declared k scope)
        = (c.desired.inScope k.kind scope).map fun d => (d.kind, d.ref) :=
      List.map_congr_left fun d hd => key_declared_of_mem hd
    rw [hsame]
    exact hkeys.sublist (List.filter_sublist.map _)
  · exact List.nodup_nil

/-- **Distinct declarations make distinct tasks**, where no two planners share a kind. -/
theorem nodup_keys_tasks (hmode : c.mode = .apply) (hkinds : (ks.map KindPlanner.kind).Nodup)
    (hkeys : (c.desired.resources.map fun d => (d.kind, d.ref)).Nodup) :
    ((c.tasks ks).map Task.key).Nodup := by
  simp only [tasks, List.map_flatMap]
  refine List.nodup_flatMap.mpr ⟨fun scope _ => List.nodup_flatMap.mpr
    ⟨fun k _ => nodup_keys_tasksOf hmode hkeys, ?_⟩, ?_⟩
  · -- planners of two kinds have no task in common
    refine (List.pairwise_map.mp hkinds).imp fun {k k'} hne key hkey hkey' => ?_
    obtain ⟨t, ht, rfl⟩ := List.mem_map.mp hkey
    obtain ⟨t', ht', heq⟩ := List.mem_map.mp hkey'
    obtain ⟨d, -, rfl⟩ := eq_declared_of_mem hmode ht
    obtain ⟨d', -, rfl⟩ := eq_declared_of_mem hmode ht'
    exact hne (congrArg Prod.fst heq).symm
  · -- a declaration lives in one namespace
    refine (nodup_planningScopes c.desired c.mode).imp fun {scope scope'} hne key hkey hkey' => ?_
    obtain ⟨k, -, hkey⟩ := List.mem_flatMap.mp hkey
    obtain ⟨k', -, hkey'⟩ := List.mem_flatMap.mp hkey'
    obtain ⟨t, ht, rfl⟩ := List.mem_map.mp hkey
    obtain ⟨t', ht', heq⟩ := List.mem_map.mp hkey'
    obtain ⟨d, hd, rfl⟩ := eq_declared_of_mem hmode ht
    obtain ⟨d', hd', rfl⟩ := eq_declared_of_mem hmode ht'
    rw [key_declared_of_mem hd, key_declared_of_mem hd'] at heq
    obtain ⟨hmem, -, hscope⟩ := c.desired.mem_inScope.mp hd
    obtain ⟨hmem', -, hscope'⟩ := c.desired.mem_inScope.mp hd'
    obtain rfl := List.inj_on_of_nodup_map hkeys hmem' hmem heq
    exact hne (hscope.symm.trans hscope')

end Scene

end Reconcile
