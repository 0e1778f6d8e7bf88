import Reconcile.Pass
import Reconcile.Proofs.Listings

/-!
# Proofs/Drafting/Tasks — what the planners do, as a list of tasks

Over a snapshot, what the planners of declared resources do comes down to a list of tasks, fixed
before the first one starts: plan a declaration, or delete a resource that nobody declares.  A task
looks at what has been drafted so far and comes to a verdict.  Main facts: `Scene.planned_cases` —
all that a task can plan — `Scene.step_cases` — all that it can do to a draft — and
`Scene.mem_changes_of_run` — every change of a draft was planned by one of the tasks.
-/

namespace Reconcile

/-- What the planners have drafted so far. -/
structure Sketch where
  changes : List Change := []
  issued : Issued := 0
  violations : List Violation := []

/-- What comes of a task. -/
inductive Verdict where
  | settled
  | forbidden (violation : Violation)
  | refused (fault : DocumentFault)
  | planned (change : Change)

/-- The verdict, unless it would violate something. -/
def Verdict.unless (v : Verdict) : Option Violation → Verdict
  | none => v
  | some violation => .forbidden violation

theorem Verdict.unless_eq_planned {v : Verdict} {violation : Option Violation} {e : Change}
    (h : v.unless violation = .planned e) : violation = none ∧ v = .planned e := by
  rcases violation with _ | w
  · exact ⟨rfl, h⟩
  · exact absurd h (by simp [Verdict.unless])

theorem Verdict.unless_ne_settled {v : Verdict} {violation : Option Violation} (h : v ≠ .settled) :
    v.unless violation ≠ .settled := by
  rcases violation with _ | w
  · exact h
  · simp [Verdict.unless]

/-- Writes a verdict down. -/
def Sketch.record (s : Sketch) : Verdict → Except Failure Sketch
  | .settled => .ok s
  | .forbidden v => .ok { s with violations := s.violations ++ [v] }
  | .refused fault => .error (.document fault)
  | .planned c => .ok { s with changes := s.changes ++ [c], issued := s.issued + 1 }

/-- What a planner has to do in a namespace. -/
inductive Task where
  | declared (k : KindPlanner) (scope : String) (d : Declaration)
  | orphan (k : KindPlanner) (scope : String) (r : Resource)

/-- What the planners of a pass are told. -/
structure Scene where
  snapshot : Snapshot
  accessors : Accessors Declaration
  desired : DesiredState
  mode : Mode

/-- The resource needs an update: the comparison says so, or the protection changes. -/
def KindPlanner.needsChange (k : KindPlanner) (d : Declaration) (r : Resource) : Bool :=
  (k.compare d r).1 || (KindPlanner.flipFor d r).isSome

namespace Scene

/-! ## The tasks -/

/-- What a planner is told for a namespace. -/
def assignment (c : Scene) (scope : String) : Assignment :=
  ⟨.ofSnapshot c.snapshot, c.accessors, c.desired, scope, c.mode⟩

/-- The existing resource that a declaration means: one of the namespace, or the one it adopts. -/
def target (c : Scene) (k : KindPlanner) (scope : String) (d : Declaration) : Option Resource :=
  ((c.snapshot.managedIn k.kind scope).find? (isMatch d)).or
    (d.id.bind fun id => c.snapshot.find? k.kind id)

/-- The tasks of a planner in a namespace. -/
def tasksOf (c : Scene) (scope : String) (k : KindPlanner) : List Task :=
  if c.snapshot.covers k.kind then
    (c.desired.inScope k.kind scope).map (.declared k scope) ++
      match c.mode with
      | .sync => (k.orphans (c.assignment scope) (c.desired.inScope k.kind scope)
          (c.snapshot.managedIn k.kind scope)).map (.orphan k scope)
      | .apply => []
  else []

/-- The tasks of a pass. -/
def tasks (c : Scene) (ks : List KindPlanner) : List Task :=
  (planningScopes c.desired c.mode).flatMap fun scope => ks.flatMap (c.tasksOf scope)

/-! ## The changes that tasks plan -/

variable (c : Scene) (k : KindPlanner) (scope : String) (d : Declaration) (r : Resource)

/-- The parent that a change for a declaration points at. -/
def parent? : Option Parent := d.parent.map (parentOf c.desired)

/-- The create for a declaration; it waits for the create of its parent. -/
def createChange (s : Sketch) : Change where
  id := freshId s.issued .create k.kind d.ref
  kind := k.kind
  ref := d.ref
  action := .create
  fields := createFields c.accessors k.kind scope d
  parent := c.parent? d
  protection := some (.status d.isProtected)
  scope := scope
  dependsOn := match c.parent? d with
    | some p =>
      if p.id.isNone then
        ((s.changes.find? fun e => e.creates p.kind p.ref).map (·.id)).toList
      else []
    | none => []

/-- The update for a declaration and the resource it means.  Where only the protection changes it
carries nothing else. -/
def updateChange (s : Sketch) : Change where
  id := freshId s.issued .update k.kind d.ref
  kind := k.kind
  ref := d.ref
  resourceId := some r.id
  action := .update
  fields := if (k.compare d r).1 then (k.compare d r).2 else ∅
  parent := if (k.compare d r).1 then c.parent? d else none
  protection := (KindPlanner.flipFor d r).map .flip
  scope := scope

/-- The delete of a resource. -/
def deleteChange (s : Sketch) : Change where
  id := freshId s.issued .delete k.kind r.name
  kind := k.kind
  ref := r.name
  resourceId := some r.id
  monikers := Dict.singleton nameField r.name
  action := .delete
  scope := scope

/-- What comes of a declaration that means an existing resource. -/
def updateVerdict (s : Sketch) : Verdict :=
  if k.needsChange d r then
    (Verdict.planned (c.updateChange k scope d r s)).unless
      (updateViolation? k.kind d.name r.isProtected (KindPlanner.flipFor d r) (k.compare d r).1)
  else .settled

/-- What comes of a declaration of a new resource. -/
def createVerdict (s : Sketch) : Verdict :=
  match missingField? k.required (createFields c.accessors k.kind scope d) with
  | some field => .refused (.missingField k.kind d.ref field)
  | none => .planned (c.createChange k scope d s)

/-- What comes of a task. -/
def verdict (s : Sketch) : Task → Verdict
  | .declared k scope d =>
    if s.changes.any fun e => e.kind == k.kind && e.ref == d.ref then .settled
    else
      match c.target k scope d with
      | some r => c.updateVerdict k scope d r s
      | none => c.createVerdict k scope d s
  | .orphan k scope r =>
    (Verdict.planned (deleteChange k scope r s)).unless
      (deleteViolation? k.kind r.name r.isProtected)

/-- Does a task. -/
def step (s : Sketch) (t : Task) : Except Failure Sketch := s.record (c.verdict s t)

/-- Does tasks, one after the other. -/
def run (ts : List Task) (s : Sketch) : Except Failure Sketch := ts.foldlM c.step s

/-! ## Where tasks come from -/

variable {c k scope d r} {s s' : Sketch} {t : Task} {e : Change} {ks : List KindPlanner}

theorem mem_tasks : t ∈ c.tasks ks
    ↔ ∃ scope ∈ planningScopes c.desired c.mode, ∃ k ∈ ks, t ∈ c.tasksOf scope k := by
  simp only [tasks, List.mem_flatMap]

/-- The tasks of a planner in a namespace are about its declarations and resources there. -/
theorem mem_tasksOf : t ∈ c.tasksOf scope k ↔ c.snapshot.covers k.kind = true
    ∧ ((∃ d ∈ c.desired.inScope k.kind scope, t = .declared k scope d)
      ∨ c.mode = .sync ∧ ∃ r ∈ k.orphans (c.assignment scope) (c.desired.inScope k.kind scope)
        (c.snapshot.managedIn k.kind scope), t = .orphan k scope r) := by
  unfold tasksOf
  split
  · next hcovers =>
    rcases hmode : c.mode with _ | _
    · simp [hcovers, eq_comm]
    · simp [hcovers, eq_comm]
  · next hcovers => simp [hcovers]

/-- A declaration of a task is one of the kind and the namespace. -/
theorem of_declared_mem (h : Task.declared k scope d ∈ c.tasks ks) : k ∈ ks
    ∧ c.snapshot.covers k.kind = true ∧ d ∈ c.desired.resources ∧ d.kind = k.kind
    ∧ c.desired.scopeOf d = scope := by
  obtain ⟨scope', -, k', hk', h⟩ := mem_tasks.mp h
  obtain ⟨hcovers, ⟨d', hd', heq⟩ | ⟨-, r, -, heq⟩⟩ := mem_tasksOf.mp h
  · obtain ⟨rfl, rfl, rfl⟩ := Task.declared.inj heq
    exact ⟨hk', hcovers, c.desired.mem_inScope.mp hd'⟩
  · exact absurd heq (by simp)

/-- A resource of a task is one of the kind. -/
theorem of_orphan_mem (h : Task.orphan k scope r ∈ c.tasks ks) :
    k ∈ ks ∧ r ∈ c.snapshot.resources ∧ r.kind = k.kind := by
  obtain ⟨scope', -, k', hk', h⟩ := mem_tasks.mp h
  obtain ⟨-, ⟨d', -, heq⟩ | ⟨-, r', hr', heq⟩⟩ := mem_tasksOf.mp h
  · exact absurd heq (by simp)
  · obtain ⟨rfl, rfl, rfl⟩ := Task.orphan.inj heq
    exact ⟨hk', Snapshot.of_mem_managedIn (List.mem_filter.mp hr').1⟩

/-- The target of a declaration is a resource of the kind that the declaration matches. -/
theorem of_target (h : c.target k scope d = some r) :
    r ∈ c.snapshot.resources ∧ r.kind = k.kind ∧ isMatch d r = true := by
  rcases Option.or_eq_some_iff.mp h with h | ⟨-, h⟩
  · obtain ⟨hmem, hkind⟩ := Snapshot.of_mem_managedIn (List.mem_of_find?_eq_some h)
    exact ⟨hmem, hkind, List.find?_some h⟩
  · obtain ⟨id, hid, hfound⟩ := Option.bind_eq_some_iff.mp h
    obtain ⟨hmem, hkind, hrid⟩ := Snapshot.of_find? hfound
    exact ⟨hmem, hkind, by simp [isMatch, hid, hrid]⟩

/-! ## What a task can plan -/

/-- **All that a task can plan**: the update of an existing resource that needs one and may have it,
the create of a missing one, or the delete of an unprotected one. -/
theorem planned_cases (h : c.verdict s t = .planned e) :
    (∃ k scope d r, t = .declared k scope d ∧ c.target k scope d = some r
      ∧ k.needsChange d r = true
      ∧ updateViolation? k.kind d.name r.isProtected (KindPlanner.flipFor d r)
        (k.compare d r).1 = none
      ∧ e = c.updateChange k scope d r s)
    ∨ (∃ k scope d, t = .declared k scope d ∧ c.target k scope d = none
      ∧ e = c.createChange k scope d s)
    ∨ (∃ k scope r, t = .orphan k scope r ∧ r.isProtected = false
      ∧ e = deleteChange k scope r s) := by
  rcases t with ⟨k, scope, d⟩ | ⟨k, scope, r⟩
  · rw [verdict] at h
    split at h
    · exact absurd h (by simp)
    · rcases htarget : c.target k scope d with _ | r
      · rw [htarget] at h
        dsimp only [createVerdict] at h
        split at h
        · exact absurd h (by simp)
        · exact .inr (.inl ⟨k, scope, d, rfl, htarget, (Verdict.planned.inj h).symm⟩)
      · rw [htarget] at h
        dsimp only [updateVerdict] at h
        split at h
        · next hneeds =>
          obtain ⟨hallowed, h⟩ := Verdict.unless_eq_planned h
          exact .inl ⟨k, scope, d, r, rfl, htarget, hneeds, hallowed, (Verdict.planned.inj h).symm⟩
        · exact absurd h (by simp)
  · obtain ⟨hallowed, h⟩ := Verdict.unless_eq_planned h
    rcases hprotected : r.isProtected with _ | _
    · exact .inr (.inr ⟨k, scope, r, rfl, hprotected, (Verdict.planned.inj h).symm⟩)
    · simp [deleteViolation?, hprotected] at hallowed

/-- **All that a task that succeeds can do**: nothing, note a violation, or add the change that it
plans. -/
theorem step_cases (h : c.step s t = .ok s') :
    (c.verdict s t = .settled ∧ s' = s)
    ∨ (∃ v, c.verdict s t = .forbidden v ∧ s' = { s with violations := s.violations ++ [v] })
    ∨ (∃ e, c.verdict s t = .planned e
      ∧ s' = { s with changes := s.changes ++ [e], issued := s.issued + 1 }) := by
  unfold step at h
  rcases hverdict : c.verdict s t with _ | v | fault | e <;> rw [hverdict] at h
  · exact .inl ⟨rfl, (Except.ok.inj h).symm⟩
  · exact .inr (.inl ⟨v, rfl, (Except.ok.inj h).symm⟩)
  · exact absurd h (by simp [Sketch.record])
  · exact .inr (.inr ⟨e, rfl, (Except.ok.inj h).symm⟩)

/-- What it does to the changes: nothing, or one more. -/
theorem changes_step (h : c.step s t = .ok s') : s'.changes = s.changes
    ∨ ∃ e, c.verdict s t = .planned e ∧ s'.changes = s.changes ++ [e] := by
  rcases step_cases h with ⟨-, rfl⟩ | ⟨v, -, rfl⟩ | ⟨e, hplanned, rfl⟩
  · exact .inl rfl
  · exact .inl rfl
  · exact .inr ⟨e, hplanned, rfl⟩

/-! ## Runs -/

theorem run_cons {ts : List Task} : c.run (t :: ts) s = c.step s t >>= c.run ts := rfl

theorem run_append {ts us : List Task} : c.run (ts ++ us) s = c.run ts s >>= c.run us :=
  List.foldlM_append

/-- A run that succeeds starts with a step that does. -/
theorem run_cons_ok {ts : List Task} (h : c.run (t :: ts) s = .ok s') :
    ∃ s₁, c.step s t = .ok s₁ ∧ c.run ts s₁ = .ok s' := by
  rw [run_cons] at h
  rcases hstep : c.step s t with e | s₁
  · rw [hstep] at h
    exact absurd h (by simp [bind, Except.bind])
  · rw [hstep] at h
    exact ⟨s₁, rfl, h⟩

/-- A run that succeeds is one run behind the other. -/
theorem run_append_ok {ts us : List Task} (h : c.run (ts ++ us) s = .ok s') :
    ∃ s₁, c.run ts s = .ok s₁ ∧ c.run us s₁ = .ok s' := by
  rw [run_append] at h
  rcases hfirst : c.run ts s with e | s₁
  · rw [hfirst] at h
    exact absurd h (by simp [bind, Except.bind])
  · rw [hfirst] at h
    exact ⟨s₁, rfl, h⟩

/-- **What every step keeps, a run keeps.** -/
theorem run_induction {I : Sketch → Prop} {ts : List Task}
    (hstep : ∀ t ∈ ts, ∀ s s', I s → c.step s t = .ok s' → I s') (hs : I s)
    (h : c.run ts s = .ok s') : I s' := by
  induction ts generalizing s with
  | nil =>
    obtain rfl := Except.ok.inj h
    exact hs
  | cons t rest ih =>
    obtain ⟨s₁, hfirst, hrest⟩ := run_cons_ok h
    exact ih (fun u hu => hstep u (.tail _ hu)) (hstep t List.mem_cons_self s s₁ hs hfirst) hrest

/-- **Every change of a draft was planned by one of the tasks.** -/
theorem mem_changes_of_run {ts : List Task} (h : c.run ts s = .ok s') (he : e ∈ s'.changes) :
    e ∈ s.changes ∨ ∃ t ∈ ts, ∃ s₁, c.verdict s₁ t = .planned e := by
  revert he
  refine run_induction (I := fun s' => e ∈ s'.changes →
    e ∈ s.changes ∨ ∃ t ∈ ts, ∃ s₁, c.verdict s₁ t = .planned e) ?_ .inl h
  intro t ht s₁ s₂ ih hstep he
  rcases changes_step hstep with heq | ⟨e', hplanned, heq⟩
  · exact ih (heq ▸ he)
  · rcases List.mem_append.mp (heq ▸ he) with he | he
    · exact ih he
    · obtain rfl := List.mem_singleton.mp he
      exact .inr ⟨t, ht, s₁, hplanned⟩

end Scene

end Reconcile
