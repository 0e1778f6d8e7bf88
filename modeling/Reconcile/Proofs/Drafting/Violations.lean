import Reconcile.Proofs.Drafting.Twins

/-!
# Proofs/Drafting/Violations — what tasks may not do

A task that protection forbids notes a violation and drafts nothing, and the run goes on.  So the
violations of a run are those of its tasks, each at its place:

* `Scene.violations_of_run` — where tasks have distinct kinds and references, all of them;
* `Scene.deleteViolations_of_run` — the forbidden deletes of any run, since a delete is drafted
  whatever else there is.
-/

namespace Reconcile

/-- **Protection forbids what a declaration asks of a resource**: the resource is protected and
differs from the declaration, which does not end the protection. -/
def KindPlanner.isForbidden (k : KindPlanner) (d : Declaration) (r : Resource) : Bool :=
  r.isProtected && (k.compare d r).1 && d.protect != some false

/-- The delete that a task may not do. -/
def Task.forbiddenDelete? : Task → Option Violation
  | .declared _ _ _ => none
  | .orphan k _ r => deleteViolation? k.kind r.name r.isProtected

/-- What a task may not do. -/
def Scene.violation? (c : Scene) : Task → Option Violation
  | .declared k scope d => (c.target k scope d).bind fun r =>
      if k.isForbidden d r then some ⟨k.kind, d.name, .update⟩ else none
  | .orphan k _ r => deleteViolation? k.kind r.name r.isProtected

variable {k : KindPlanner} {d : Declaration} {r : Resource}

/-- **An update is a violation where protection forbids it.** -/
theorem updateViolation?_flipFor : updateViolation? k.kind d.name r.isProtected
    (KindPlanner.flipFor d r) (k.compare d r).1
      = if k.isForbidden d r then some ⟨k.kind, d.name, .update⟩ else none := by
  unfold updateViolation? KindPlanner.isForbidden KindPlanner.flipFor
  rcases r.isProtected with _ | _
  · simp
  · rcases d.protect with _ | _ | _ <;> simp [Flip.isChange]

/-- What protection forbids would change the resource. -/
theorem KindPlanner.needsChange_of_isForbidden (h : k.isForbidden d r = true) :
    k.needsChange d r = true := by
  simp only [isForbidden, Bool.and_eq_true] at h
  simp [needsChange, h.1.2]

namespace Scene

variable {c : Scene} {s s' : Sketch} {t : Task} {ts : List Task} {v : Violation}

/-! ## One task -/

/-- **All that a task can violate**: the update of a protected resource, or its delete. -/
theorem forbidden_cases (h : c.verdict s t = .forbidden v) :
    (∃ k scope d r, t = .declared k scope d ∧ c.target k scope d = some r
      ∧ k.isForbidden d r = true ∧ v = ⟨k.kind, d.name, .update⟩)
    ∨ (∃ k scope r, t = .orphan k scope r ∧ r.isProtected = true
      ∧ v = ⟨k.kind, r.name, .delete⟩) := by
  rcases t with ⟨k, scope, d⟩ | ⟨k, scope, r⟩
  · rw [verdict] at h
    split at h
    · exact absurd h (by simp)
    · rcases htarget : c.target k scope d with _ | r <;> rw [htarget] at h
      · dsimp only [createVerdict] at h
        split at h <;> exact absurd h (by simp)
      · dsimp only [updateVerdict] at h
        rw [updateViolation?_flipFor] at h
        split at h
        · rcases hforbidden : k.isForbidden d r with _ | _ <;> rw [hforbidden] at h
          · exact absurd h (by simp [Verdict.unless])
          · exact .inl ⟨k, scope, d, r, rfl, htarget, hforbidden, (Verdict.forbidden.inj h).symm⟩
        · exact absurd h (by simp)
  · rw [verdict, deleteViolation?] at h
    rcases hprotected : r.isProtected with _ | _ <;> rw [hprotected] at h
    · exact absurd h (by simp [Verdict.unless])
    · exact .inr ⟨k, scope, r, rfl, hprotected, (Verdict.forbidden.inj h).symm⟩

theorem violation?_of_forbidden (h : c.verdict s t = .forbidden v) : c.violation? t = some v := by
  rcases forbidden_cases h with ⟨k, scope, d, r, rfl, htarget, hforbidden, rfl⟩
    | ⟨k, scope, r, rfl, hprotected, rfl⟩
  · rw [violation?, htarget, Option.bind_some, if_pos hforbidden]
  · rw [violation?, deleteViolation?, if_pos hprotected]

/-- A task that finds no change for its kind and reference violates what it may not do. -/
theorem forbidden_of_violation? (hfresh : t.isDeclared = true → ∀ e ∈ s.changes, e.key ≠ t.key)
    (h : c.violation? t = some v) : c.verdict s t = .forbidden v := by
  rcases t with ⟨k, scope, d⟩ | ⟨k, scope, r⟩
  · have hfree : ¬ (s.changes.any fun e => e.kind == k.kind && e.ref == d.ref) = true := by
      rw [any_eq_true_iff s k scope d]
      rintro ⟨e, he, hkey⟩
      exact hfresh rfl e he hkey
    obtain ⟨r, htarget, hv⟩ := Option.bind_eq_some_iff.mp h
    rw [verdict, if_neg hfree, htarget]
    dsimp only [updateVerdict]
    rw [updateViolation?_flipFor, hv]
    split at hv
    · next hforbidden => exact if_pos (KindPlanner.needsChange_of_isForbidden hforbidden)
    · exact absurd hv (by simp)
  · rw [violation?] at h
    rw [verdict, h]
    rfl

/-- **A task notes what it may not do**, behind what has been noted. -/
theorem violations_of_step (hfresh : t.isDeclared = true → ∀ e ∈ s.changes, e.key ≠ t.key)
    (h : c.step s t = .ok s') : s'.violations = s.violations ++ (c.violation? t).toList := by
  rcases hviolation : c.violation? t with _ | v
  · rw [Option.toList_none, List.append_nil]
    rcases step_cases h with ⟨-, rfl⟩ | ⟨v, hforbidden, rfl⟩ | ⟨e, -, rfl⟩
    · rfl
    · exact absurd (violation?_of_forbidden hforbidden) (by simp [hviolation])
    · rfl
  · rw [step, forbidden_of_violation? hfresh hviolation] at h
    obtain rfl := Except.ok.inj h
    rfl

/-- **A task notes the delete that it may not do**, and no other one. -/
theorem deleteViolations_of_step (h : c.step s t = .ok s') :
    s'.violations.filter (·.action = .delete)
      = s.violations.filter (·.action = .delete) ++ t.forbiddenDelete?.toList := by
  rcases t with ⟨k, scope, d⟩ | ⟨k, scope, r⟩
  · rw [Task.forbiddenDelete?, Option.toList_none, List.append_nil]
    rcases step_cases h with ⟨-, rfl⟩ | ⟨v, hforbidden, rfl⟩ | ⟨e, -, rfl⟩
    · rfl
    · rcases forbidden_cases hforbidden with ⟨-, -, -, -, -, -, -, rfl⟩ | ⟨k, scope, r, heq, -, -⟩
      · simp
      · exact absurd heq (by simp)
    · rfl
  · rw [violations_of_step (fun hdeclared => absurd hdeclared (by simp [Task.isDeclared])) h,
      List.filter_append, violation?, Task.forbiddenDelete?, deleteViolation?]
    rcases r.isProtected with _ | _ <;> simp

/-! ## Runs -/

/-- **The violations of a run are those of its tasks**, if they have distinct kinds and
references. -/
theorem violations_of_run (hnodup : (ts.map Task.key).Nodup)
    (hfresh : ∀ t ∈ ts, ∀ e ∈ s.changes, e.key ≠ t.key) (h : c.run ts s = .ok s') :
    s'.violations = s.violations ++ ts.filterMap c.violation? := by
  induction ts generalizing s with
  | nil =>
    obtain rfl := Except.ok.inj h
    simp
  | cons t rest ih =>
    obtain ⟨s₁, hstep, hrest⟩ := run_cons_ok h
    rw [List.map_cons, List.nodup_cons] at hnodup
    have hfresh₁ : ∀ u ∈ rest, ∀ e ∈ s₁.changes, e.key ≠ u.key := by
      intro u hu e he
      rcases mem_changes_of_step hstep he with he | hkey
      · exact hfresh u (.tail _ hu) e he
      · exact fun heq => hnodup.1 (hkey ▸ heq ▸ List.mem_map_of_mem hu)
    rw [ih hnodup.2 hfresh₁ hrest, violations_of_step (fun _ => hfresh t List.mem_cons_self) hstep,
      List.append_assoc, List.filterMap_cons]
    cases c.violation? t <;> rfl

/-- **The forbidden deletes of a run are those of its tasks.** -/
theorem deleteViolations_of_run (h : c.run ts s = .ok s') :
    s'.violations.filter (·.action = .delete)
      = s.violations.filter (·.action = .delete) ++ ts.filterMap Task.forbiddenDelete? := by
  induction ts generalizing s with
  | nil =>
    obtain rfl := Except.ok.inj h
    simp
  | cons t rest ih =>
    obtain ⟨s₁, hstep, hrest⟩ := run_cons_ok h
    rw [ih hrest, deleteViolations_of_step hstep, List.append_assoc, List.filterMap_cons]
    cases t.forbiddenDelete? <;> rfl

end Scene

end Reconcile
