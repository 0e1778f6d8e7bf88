import Reconcile.Proofs.Drafting.Modes

/-!
# Proofs/Drafting/Kinds — tasks of different kinds leave each other alone

A task looks at the draft only for a change with its own kind and reference, and adds a change of
its own kind at most.  So the tasks of each kind go the same way with those of the other kinds in
between as without them (`Scene.filter_of_draftBare?`, `Scene.isSome_draftBare?`).  Main fact:
`Scene.exists_perm_of_run` — in whichever order the planners are, a pass drafts the same changes, up
to their order, their identifiers and what they depend on.
-/

namespace Reconcile

/-- **Lists with the same members under each key, in the same order, have the same members.** -/
theorem perm_of_filter_eq {α β : Type} [DecidableEq β] (key : α → β) {l m : List α}
    (h : ∀ b, l.filter (key · = b) = m.filter (key · = b)) : l.Perm m := by
  classical
  refine List.perm_iff_count.mpr fun a => ?_
  have hcount : ∀ l : List α, (l.filter (key · = key a)).count a = l.count a := fun l =>
    List.count_filter (by simp)
  rw [← hcount l, h, hcount m]

/-- What a verdict adds to a draft that violates nothing, all but identifiers and dependencies;
nothing can come of a verdict that is against it. -/
def Verdict.addition? : Verdict → Option (List Change)
  | .settled => some []
  | .planned e => some [e.bare]
  | .forbidden _ => none
  | .refused _ => none

theorem Verdict.addition?_unless_planned (e : Change) (violation : Option Violation) :
    ((Verdict.planned e).unless violation).addition?
      = if violation.isNone then some [e.bare] else none := by
  cases violation <;> rfl

namespace Scene

variable {c : Scene} {ks ks' : List KindPlanner} {s s' : Sketch} {t : Task} {ts : List Task}
  {bs bs' added : List Change} {kind : String}

/-! ## One task -/

/-- **A task looks at a draft only for a change with its kind and reference.** -/
theorem addition?_congr
    (h : (∃ e ∈ s.changes, e.key = t.key) ↔ ∃ e ∈ s'.changes, e.key = t.key) :
    (c.verdict s t).addition? = (c.verdict s' t).addition? := by
  rcases t with ⟨k, scope, d⟩ | ⟨k, scope, r⟩
  · by_cases htaken : ∃ e ∈ s.changes, e.key = (Task.declared k scope d).key
    · rw [verdict, verdict, if_pos ((any_eq_true_iff s k scope d).mpr htaken),
        if_pos ((any_eq_true_iff s' k scope d).mpr (h.mp htaken))]
    · rw [verdict, verdict, if_neg (mt (any_eq_true_iff s k scope d).mp htaken),
        if_neg (mt (any_eq_true_iff s' k scope d).mp (mt h.mpr htaken))]
      rcases c.target k scope d with _ | r
      · dsimp only [createVerdict]
        split <;> rfl
      · dsimp only [updateVerdict]
        split
        · rw [Verdict.addition?_unless_planned, Verdict.addition?_unless_planned]
          rfl
        · rfl
  · dsimp only [verdict]
    rw [Verdict.addition?_unless_planned, Verdict.addition?_unless_planned]
    rfl

/-- What a task adds is of its kind. -/
theorem kind_of_addition? (h : (c.verdict s t).addition? = some added) {e : Change}
    (he : e ∈ added) : e.kind = t.key.1 := by
  rcases hverdict : c.verdict s t with _ | v | fault | b <;> rw [hverdict] at h
  · obtain rfl := Option.some.inj h
    exact absurd he List.not_mem_nil
  · exact absurd h (by simp [Verdict.addition?])
  · exact absurd h (by simp [Verdict.addition?])
  · obtain rfl := Option.some.inj h
    obtain rfl := List.mem_singleton.mp he
    exact congrArg Prod.fst (key_of_planned hverdict)

/-! ## Runs that violate nothing -/

/-- What a task makes of the changes so far, all but identifiers and dependencies. -/
def stepBare? (c : Scene) (bs : List Change) (t : Task) : Option (List Change) :=
  (c.verdict { changes := bs } t).addition?.map (bs ++ ·)

/-- What tasks draft one after the other, all but identifiers and dependencies, if they violate
nothing. -/
def draftBare? (c : Scene) (ts : List Task) (bs : List Change) : Option (List Change) :=
  ts.foldlM c.stepBare? bs

theorem draftBare?_cons : c.draftBare? (t :: ts) bs = (c.stepBare? bs t).bind (c.draftBare? ts) :=
  rfl

/-- The kinds and references of a draft can be told without identifiers. -/
theorem exists_key_bare_iff {changes : List Change} {key : String × String} :
    (∃ e ∈ changes.map Change.bare, e.key = key) ↔ ∃ e ∈ changes, e.key = key := by
  simp only [List.mem_map, exists_exists_and_eq_and]
  rfl

/-- A step that violates nothing does what can be told without identifiers. -/
theorem stepBare?_of_step (h : c.step s t = .ok s') (hlawful : s'.violations = []) :
    c.stepBare? (s.changes.map Change.bare) t = some (s'.changes.map Change.bare) := by
  have hsame : (c.verdict { changes := s.changes.map Change.bare } t).addition?
      = (c.verdict s t).addition? := addition?_congr exists_key_bare_iff
  unfold stepBare?
  rw [hsame]
  rcases step_cases h with ⟨hverdict, rfl⟩ | ⟨v, -, rfl⟩ | ⟨e, hverdict, rfl⟩
  · rw [hverdict]
    simp [Verdict.addition?]
  · exact absurd hlawful (by simp)
  · rw [hverdict]
    simp [Verdict.addition?]

/-- What can be told without identifiers is what a step does. -/
theorem step_of_stepBare? (h : c.stepBare? (s.changes.map Change.bare) t = some bs) :
    ∃ s', c.step s t = .ok s' ∧ s'.violations = s.violations
      ∧ s'.changes.map Change.bare = bs := by
  have hsame : (c.verdict { changes := s.changes.map Change.bare } t).addition?
      = (c.verdict s t).addition? := addition?_congr exists_key_bare_iff
  unfold stepBare? at h
  rw [hsame] at h
  obtain ⟨added, hadded, rfl⟩ := Option.map_eq_some_iff.mp h
  unfold step
  rcases hverdict : c.verdict s t with _ | v | fault | b <;> rw [hverdict] at hadded
  · obtain rfl := Option.some.inj hadded
    exact ⟨s, rfl, rfl, (List.append_nil _).symm⟩
  · exact absurd hadded (by simp [Verdict.addition?])
  · exact absurd hadded (by simp [Verdict.addition?])
  · obtain rfl := Option.some.inj hadded
    exact ⟨_, rfl, rfl, List.map_append⟩

/-- **A run that violates nothing drafts what can be told without identifiers.** -/
theorem draftBare?_of_run (h : c.run ts s = .ok s') (hlawful : s'.violations = []) :
    c.draftBare? ts (s.changes.map Change.bare) = some (s'.changes.map Change.bare) := by
  induction ts generalizing s with
  | nil =>
    obtain rfl := Except.ok.inj h
    rfl
  | cons t rest ih =>
    obtain ⟨s₁, hstep, hrest⟩ := run_cons_ok h
    rw [draftBare?_cons, stepBare?_of_step hstep (violations_run hrest hlawful), Option.bind_some,
      ih hrest]

/-- **What can be told without identifiers is what a run drafts.** -/
theorem run_of_draftBare? (h : c.draftBare? ts (s.changes.map Change.bare) = some bs) :
    ∃ s', c.run ts s = .ok s' ∧ s'.violations = s.violations
      ∧ s'.changes.map Change.bare = bs := by
  induction ts generalizing s with
  | nil =>
    obtain rfl := Option.some.inj h
    exact ⟨s, rfl, rfl, rfl⟩
  | cons t rest ih =>
    rw [draftBare?_cons] at h
    obtain ⟨bs₁, hfirst, hrest⟩ := Option.bind_eq_some_iff.mp h
    obtain ⟨s₁, hstep, hviolations, rfl⟩ := step_of_stepBare? hfirst
    obtain ⟨s', hrun, hviolations', hbare⟩ := ih hrest
    refine ⟨s', ?_, hviolations'.trans hviolations, hbare⟩
    rw [run_cons, hstep]
    exact hrun

/-! ## Kind by kind -/

/-- The tasks of a kind. -/
def tasksFor (kind : String) (ts : List Task) : List Task := ts.filter (·.key.1 = kind)

/-- The changes of a kind. -/
def changesFor (kind : String) (changes : List Change) : List Change := changes.filter (·.kind = kind)

/-- Changes of one kind are all that it has, and none of the other kinds. -/
theorem changesFor_append (hadded : ∀ e ∈ added, e.kind = kind) (bs : List Change) (other : String) :
    changesFor other (bs ++ added)
      = changesFor other bs ++ if kind = other then added else [] := by
  unfold changesFor
  rw [List.filter_append]
  congr 1
  split
  · next heq => exact List.filter_eq_self.mpr fun e he => by simp [hadded e he, heq]
  · next hne => exact List.filter_eq_nil_iff.mpr fun e he => by simp [hadded e he, hne]

/-- A task can do with the changes of its kind. -/
theorem addition?_changesFor (bs : List Change) (t : Task) :
    (c.verdict { changes := changesFor t.key.1 bs } t).addition?
      = (c.verdict { changes := bs } t).addition? := by
  refine addition?_congr ⟨fun ⟨e, he, hkey⟩ => ⟨e, (List.mem_filter.mp he).1, hkey⟩,
    fun ⟨e, he, hkey⟩ => ⟨e, List.mem_filter.mpr ⟨he, ?_⟩, hkey⟩⟩
  exact decide_eq_true (congrArg Prod.fst hkey)

/-- **What is drafted of a kind is what its tasks draft**, without those of the other kinds. -/
theorem draftBare?_changesFor (kind : String) (h : c.draftBare? ts bs = some bs') :
    c.draftBare? (tasksFor kind ts) (changesFor kind bs) = some (changesFor kind bs') := by
  induction ts generalizing bs with
  | nil =>
    obtain rfl := Option.some.inj h
    rfl
  | cons t rest ih =>
    rw [draftBare?_cons] at h
    obtain ⟨bs₁, hfirst, hrest⟩ := Option.bind_eq_some_iff.mp h
    obtain ⟨added, hadded, rfl⟩ := Option.map_eq_some_iff.mp hfirst
    have hkinds := changesFor_append (fun e he => kind_of_addition? hadded he) bs kind
    unfold tasksFor
    by_cases hkind : t.key.1 = kind
    · rw [List.filter_cons_of_pos (by simpa using hkind), draftBare?_cons, stepBare?, ← hkind,
        addition?_changesFor, hadded, hkind]
      rw [if_pos hkind] at hkinds
      change c.draftBare? (tasksFor kind rest) (changesFor kind bs ++ added) = _
      exact hkinds ▸ ih hrest
    · rw [List.filter_cons_of_neg (by simpa using hkind)]
      rw [if_neg hkind, List.append_nil] at hkinds
      exact hkinds ▸ ih hrest

/-- **Tasks whose kinds all get through get through together.** -/
theorem isSome_draftBare?
    (h : ∀ kind, (c.draftBare? (tasksFor kind ts) (changesFor kind bs)).isSome = true) :
    (c.draftBare? ts bs).isSome = true := by
  induction ts generalizing bs with
  | nil => rfl
  | cons t rest ih =>
    have hown := h t.key.1
    unfold tasksFor at hown
    rw [List.filter_cons_of_pos (by simp), draftBare?_cons, stepBare?, addition?_changesFor] at hown
    rcases hadded : (c.verdict { changes := bs } t).addition? with _ | added
    · rw [hadded] at hown
      exact absurd hown (by simp)
    · rw [draftBare?_cons, stepBare?, hadded]
      refine ih fun kind => ?_
      rw [changesFor_append (fun e he => kind_of_addition? hadded he) bs kind]
      by_cases hkind : t.key.1 = kind
      · subst hkind
        rw [hadded] at hown
        rw [if_pos rfl]
        exact hown
      · have hother := h kind
        unfold tasksFor at hother
        rw [List.filter_cons_of_neg (by simpa using hkind)] at hother
        rwa [if_neg hkind, List.append_nil]

/-! ## Planners in another order -/

/-- The tasks of a kind are those of its planner. -/
theorem tasksFor_tasks (c : Scene) (ks : List KindPlanner) (kind : String) :
    tasksFor kind (c.tasks ks) = (planningScopes c.desired c.mode).flatMap fun scope =>
      (ks.filter (·.kind = kind)).flatMap (c.tasksOf scope) := by
  have hplanner : ∀ scope (k : KindPlanner), (c.tasksOf scope k).filter (·.key.1 = kind)
      = if k.kind = kind then c.tasksOf scope k else [] := by
    intro scope k
    split
    · next heq =>
      exact List.filter_eq_self.mpr fun t ht => by simp [(scope_of_mem_tasksOf ht).2, heq]
    · next hne =>
      exact List.filter_eq_nil_iff.mpr fun t ht => by simp [(scope_of_mem_tasksOf ht).2, hne]
  unfold tasksFor tasks
  rw [List.filter_flatMap]
  refine List.flatMap_congr fun scope _ => ?_
  rw [List.filter_flatMap]
  induction ks with
  | nil => rfl
  | cons k rest ih =>
    rw [List.flatMap_cons, ih, hplanner]
    split
    · next heq => rw [List.filter_cons_of_pos (by simpa using heq), List.flatMap_cons]
    · next hne => rw [List.filter_cons_of_neg (by simpa using hne), List.nil_append]

/-- In whichever order planners of distinct kinds are, each kind has the same one. -/
theorem filter_kind_eq (hkinds : (ks.map KindPlanner.kind).Nodup) (hperm : ks.Perm ks')
    (kind : String) : ks.filter (·.kind = kind) = ks'.filter (·.kind = kind) := by
  have hfilter := hperm.filter (·.kind = kind)
  rcases List.eq_nil_or_concat (ks.filter (·.kind = kind)) with hnil | ⟨_, k, hmem⟩
  · rw [hnil] at hfilter ⊢
    exact (List.nil_perm.mp hfilter).symm
  · have hfound : k ∈ ks.filter (·.kind = kind) := by
      rw [hmem]
      simp
    obtain ⟨hk, hkind⟩ := List.mem_filter.mp hfound
    obtain rfl : k.kind = kind := by simpa using hkind
    rw [filter_eq_singleton hkinds hk] at hfilter ⊢
    exact List.singleton_perm.mp hfilter

/-- **In whichever order planners of distinct kinds are, a pass drafts the same changes**, up to
their order, their identifiers and what they depend on. -/
theorem exists_perm_of_run (hkinds : (ks.map KindPlanner.kind).Nodup) (hperm : ks.Perm ks')
    (hrun : c.run (c.tasks ks) {} = .ok s) (hlawful : s.violations = []) :
    ∃ s', c.run (c.tasks ks') {} = .ok s' ∧ s'.violations = []
      ∧ (s.changes.map Change.bare).Perm (s'.changes.map Change.bare) := by
  have hdraft : c.draftBare? (c.tasks ks) [] = some (s.changes.map Change.bare) :=
    draftBare?_of_run hrun hlawful
  have htasks : ∀ kind, tasksFor kind (c.tasks ks') = tasksFor kind (c.tasks ks) := fun kind => by
    rw [tasksFor_tasks, tasksFor_tasks, filter_kind_eq hkinds hperm]
  have hdrafts : ∀ kind, c.draftBare? (tasksFor kind (c.tasks ks')) []
      = some (changesFor kind (s.changes.map Change.bare)) := fun kind =>
    htasks kind ▸ draftBare?_changesFor kind hdraft
  have hsome : (c.draftBare? (c.tasks ks') []).isSome = true :=
    isSome_draftBare? fun kind => Option.isSome_iff_exists.mpr ⟨_, hdrafts kind⟩
  obtain ⟨bs, hbs⟩ := Option.isSome_iff_exists.mp hsome
  obtain ⟨s', hrun', hviolations, hbare⟩ :
      ∃ s', c.run (c.tasks ks') {} = .ok s' ∧ s'.violations = [] ∧ s'.changes.map Change.bare = bs :=
    run_of_draftBare? hbs
  refine ⟨s', hrun', hviolations, perm_of_filter_eq Change.kind fun kind => ?_⟩
  have hkind := draftBare?_changesFor kind hbs
  rw [hbare]
  exact Option.some.inj ((hdrafts kind).symm.trans hkind)

end Scene

end Reconcile
