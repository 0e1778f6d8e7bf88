import Reconcile.Proofs.Drafting.Tasks
import Reconcile.Proofs.Ends

/-!
# Proofs/Drafting/Simulation — planners over a snapshot do their tasks

A draft **shows** a sketch when it has its changes, and when what it remembers of the snapshot is
what the snapshot lists.  An act of a planner **does** tasks when it takes drafts that show a sketch
to drafts that show the sketch with the tasks done.  Main fact: `Scene.does_draftAll` — all planners
together do the tasks of the pass.
-/

namespace Reconcile

/-- **The draft shows a sketch**, and its session is faithful to the snapshot. -/
structure Draft.Shows (snap : Snapshot) (d : Draft) (s : Sketch) : Prop where
  changes : d.plan.changes = s.changes
  issued : d.issued = s.issued
  violations : d.violations = s.violations
  warnings : d.plan.warnings = []
  faithful : d.session.Faithful IsSingle snap

namespace Draft.Shows

variable {snap : Snapshot} {dr : Draft} {s : Sketch}

/-- Adding the change with the next identifier. -/
theorem add (h : dr.Shows snap s) (e : Change) :
    Shows snap { dr with plan := dr.plan.addChange e, issued := s.issued + 1 }
      { s with changes := s.changes ++ [e], issued := s.issued + 1 } where
  changes := by rw [← h.changes]; rfl
  issued := rfl
  violations := h.violations
  warnings := h.warnings
  faithful := h.faithful

/-- Asking changes nothing that a draft shows. -/
theorem asked (h : dr.Shows snap s) {session : Session}
    (hfaithful : session.Faithful IsSingle snap) :
    Shows snap { dr with session := session } s :=
  ⟨h.changes, h.issued, h.violations, h.warnings, hfaithful⟩

end Draft.Shows

namespace Scene

variable {c : Scene} {k : KindPlanner} {scope : String} {d : Declaration} {r : Resource}
  {dr : Draft} {s : Sketch}

/-- An act comes to a verdict on what the draft shows. -/
def ComesTo (c : Scene) (act : Drafting Unit) (dr : Draft) (s : Sketch) (v : Verdict) : Prop :=
  Ends act dr (fun _ dr' => ∃ s', s.record v = .ok s' ∧ dr'.Shows c.snapshot s')
    fun e _ => s.record v = .error e

/-- **An act does tasks**, one after the other. -/
def Does (c : Scene) (act : Drafting Unit) (ts : List Task) : Prop :=
  ∀ dr s, dr.Shows c.snapshot s →
    Ends act dr (fun _ dr' => ∃ s', c.run ts s = .ok s' ∧ dr'.Shows c.snapshot s')
      fun e _ => c.run ts s = .error e

/-! ## Putting acts together -/

theorem does_pure : c.Does (pure ()) [] := fun _ s h => ends_pure.mpr ⟨s, rfl, h⟩

theorem Does.bind {act act' : Drafting Unit} {ts us : List Task} (h : c.Does act ts)
    (h' : c.Does act' us) : c.Does (do act; act') (ts ++ us) := by
  intro dr s hshows
  rw [ends_bind]
  refine (h dr s hshows).imp (fun _ dr₁ ⟨s₁, hrun, hshows₁⟩ => ?_) fun e _ hrun => ?_
  · refine (h' dr₁ s₁ hshows₁).imp (fun _ dr₂ ⟨s₂, hrun₂, hshows₂⟩ => ?_) fun e _ hrun₂ => ?_
    · refine ⟨s₂, ?_, hshows₂⟩
      rw [run_append, hrun]
      exact hrun₂
    · rw [run_append, hrun]
      exact hrun₂
  · rw [run_append, hrun]
    rfl

/-- What is done for every member of a list does the tasks of every member. -/
theorem does_forEach {α : Type} {act : α → Drafting Unit} {ts : α → List Task} {l : List α}
    (h : ∀ a ∈ l, c.Does (act a) (ts a)) : c.Does (Drafting.forEach act l) (l.flatMap ts) := by
  induction l with
  | nil => exact does_pure
  | cons a rest ih =>
    rw [List.flatMap_cons]
    exact (h a List.mem_cons_self).bind (ih fun b hb => h b (.tail _ hb))

theorem forEach_map {α β : Type} {f : α → β} {act : β → Drafting Unit} {l : List α} :
    Drafting.forEach act (l.map f) = Drafting.forEach (fun a => act (f a)) l := by
  induction l with
  | nil => rfl
  | cons a rest ih => rw [List.map_cons, Drafting.forEach, Drafting.forEach, ih]

/-- An act that comes to the verdict of a task does the task. -/
theorem does_singleton {act : Drafting Unit} {t : Task}
    (h : ∀ dr s, dr.Shows c.snapshot s → c.ComesTo act dr s (c.verdict s t)) :
    c.Does act [t] := by
  intro dr s hshows
  have hrun : c.run [t] s = s.record (c.verdict s t) := by
    change (s.record (c.verdict s t) >>= fun s' => .ok s') = _
    rcases s.record (c.verdict s t) with _ | _ <;> rfl
  rw [hrun]
  exact h dr s hshows

/-! ## Verdicts -/

theorem comesTo_settled (h : dr.Shows c.snapshot s) : c.ComesTo (pure ()) dr s .settled :=
  ends_pure.mpr ⟨s, rfl, h⟩

theorem comesTo_add (h : dr.Shows c.snapshot s) {build : Issued → Change × Issued} {e : Change}
    (hbuild : build s.issued = (e, s.issued + 1)) :
    c.ComesTo (Drafting.add build) dr s (.planned e) := by
  have hrun : (Drafting.add build).run.run dr
      = (.ok (), { dr with plan := dr.plan.addChange e, issued := s.issued + 1 }) := by
    simp only [Drafting.add, Drafting.update, ExceptT.run, StateT.run, h.issued, hbuild]
  exact (ends_of_run_ok hrun).mpr ⟨_, rfl, h.add e⟩

theorem comesTo_addOrFail (h : dr.Shows c.snapshot s)
    {build : Issued → Except DocumentFault (Change × Issued)} {e : Change}
    (hbuild : build s.issued = .ok (e, s.issued + 1)) :
    c.ComesTo (Drafting.addOrFail build) dr s (.planned e) := by
  have hrun : (Drafting.addOrFail build).run.run dr
      = (.ok (), { dr with plan := dr.plan.addChange e, issued := s.issued + 1 }) := by
    simp only [Drafting.addOrFail, ExceptT.run, StateT.run, h.issued, hbuild]
  exact (ends_of_run_ok hrun).mpr ⟨_, rfl, h.add e⟩

theorem comesTo_refused (h : dr.Shows c.snapshot s)
    {build : Issued → Except DocumentFault (Change × Issued)} {fault : DocumentFault}
    (hbuild : build s.issued = .error fault) :
    c.ComesTo (Drafting.addOrFail build) dr s (.refused fault) := by
  have hrun : (Drafting.addOrFail build).run.run dr = (.error (.document fault), dr) := by
    simp only [Drafting.addOrFail, ExceptT.run, StateT.run, h.issued, hbuild]
  exact (ends_of_run_error hrun).mpr rfl

/-- A violation is noted, and nothing else is done. -/
theorem comesTo_permitted (h : dr.Shows c.snapshot s) {violation : Option Violation}
    {act : Drafting Unit} {v : Verdict} (hact : c.ComesTo act dr s v) :
    c.ComesTo (do if ← Drafting.permitted violation then act) dr s (v.unless violation) := by
  unfold ComesTo
  rw [ends_bind]
  rcases violation with _ | w
  · exact (ends_of_run_ok rfl).mpr hact
  · have hrun : (Drafting.permitted (some w)).run.run dr
        = (.ok false, { dr with violations := dr.violations ++ [w] }) := rfl
    refine (ends_of_run_ok hrun).mpr ?_
    refine ends_pure.mpr ⟨_, rfl, h.changes, h.issued, ?_, h.warnings, h.faithful⟩
    exact congrArg (· ++ [w]) h.violations

/-- Reading changes nothing. -/
theorem comesTo_read {α : Type} {f : Draft → α} {act : α → Drafting Unit} {v : Verdict} :
    c.ComesTo (do act (← Drafting.read f)) dr s v ↔ c.ComesTo (act (f dr)) dr s v := by
  unfold ComesTo
  rw [ends_bind]
  exact ends_of_run_ok rfl

/-! ## Declarations and deletes -/

theorem isChange_of_flipFor {f : Flip} (h : KindPlanner.flipFor d r = some f) :
    f.isChange = true := by
  unfold KindPlanner.flipFor at h
  dsimp only at h
  split at h
  · next hchange => exact Option.some.inj h ▸ hchange
  · exact absurd h (by simp)

/-- Planning an update comes to the verdict on it. -/
theorem comesTo_planUpdate (h : dr.Shows c.snapshot s) :
    c.ComesTo (k.planUpdate (c.assignment scope) d r) dr s (c.updateVerdict k scope d r s) := by
  unfold KindPlanner.planUpdate updateVerdict KindPlanner.needsChange
  rcases hcompare : k.compare d r with ⟨needsUpdate, fields⟩
  dsimp only
  rcases hflip : KindPlanner.flipFor d r with _ | f
  · rcases needsUpdate with _ | _
    · exact comesTo_settled h
    · refine comesTo_permitted h (comesTo_addOrFail h ?_)
      simp only [updateChange, hcompare, hflip]
      rfl
  · have hchange := isChange_of_flipFor hflip
    rcases needsUpdate with _ | _
    · refine comesTo_permitted h (comesTo_add h ?_)
      simp only [updateChange, hcompare, hflip]
      rfl
    · refine comesTo_permitted h (comesTo_addOrFail h ?_)
      simp only [updateChange, hcompare, hflip, UpdateRequest.build, checkRequired, missingField?,
        Option.filter, hchange]
      rfl

/-- Planning a create comes to the verdict on it. -/
theorem comesTo_planCreate (h : dr.Shows c.snapshot s) :
    c.ComesTo (k.planCreate (c.assignment scope) d) dr s (c.createVerdict k scope d s) := by
  have hcreate : ∀ kind ref, dr.plan.createOf? kind ref
      = s.changes.find? fun e => e.creates kind ref := by
    intro kind ref
    rw [← h.changes, Plan.createOf?]
  unfold KindPlanner.planCreate createVerdict
  dsimp only
  rw [comesTo_read]
  rcases hmissing : missingField? k.required (createFields c.accessors k.kind scope d) with _ | field
  · refine comesTo_addOrFail h ?_
    simp only [CreateRequest.build, checkRequired, assignment, hmissing, hcreate]
    rfl
  · refine comesTo_refused h ?_
    simp only [CreateRequest.build, checkRequired, assignment, hmissing]
    rfl

/-- Planning a delete comes to the verdict on it. -/
theorem comesTo_planDelete (h : dr.Shows c.snapshot s) :
    c.ComesTo (k.planDelete (c.assignment scope) r) dr s (c.verdict s (.orphan k scope r)) :=
  comesTo_permitted h (comesTo_add h rfl)

/-! ## What is asked -/

theorem ends_ask {α : Type} {question : Session → Except StateFault α × Session}
    {answer : Except StateFault α} {session : Session} {Q : Except StateFault α → Draft → Prop}
    {E : Failure → Draft → Prop} (h : question dr.session = (answer, session)) :
    Ends (Drafting.ask question) dr Q E ↔ Q answer { dr with session := session } := by
  rw [ends_of_run_ok]
  simp only [Drafting.ask, ExceptT.run, StateT.run, h]

/-- Looking for the resource that a declaration adopts finds the one of the snapshot. -/
theorem ends_adopted (hcovers : c.snapshot.covers k.kind = true) (h : dr.Shows c.snapshot s)
    {Q : Option Resource → Draft → Prop} {E : Failure → Draft → Prop}
    (hQ : ∀ dr' : Draft, dr'.Shows c.snapshot s →
      Q (d.id.bind fun id => c.snapshot.find? k.kind id) dr') :
    Ends (k.adopted (c.assignment scope) d) dr Q E := by
  unfold KindPlanner.adopted
  generalize d.id = wanted at hQ ⊢
  rcases wanted with _ | id
  · exact ends_pure.mpr (hQ dr h)
  · obtain ⟨session, hget, hfaithful⟩ := Session.get_ofSnapshot h.faithful k.kind id
    rw [Snapshot.get_of_covers hcovers] at hget
    dsimp only
    rw [ends_bind]
    exact (ends_ask hget).mpr (ends_pure.mpr (hQ _ (h.asked hfaithful)))

/-! ## Planners -/

/-- Planning a declaration does its task. -/
theorem does_planDeclared (hcovers : c.snapshot.covers k.kind = true) :
    c.Does (k.planDeclared (c.assignment scope) (c.snapshot.managedIn k.kind scope) d)
      [.declared k scope d] := by
  refine does_singleton fun dr s h => ?_
  unfold KindPlanner.planDeclared
  rw [comesTo_read, Plan.hasChange, h.changes, verdict]
  split
  · exact comesTo_settled h
  · rw [target]
    rcases (c.snapshot.managedIn k.kind scope).find? (isMatch d) with _ | r
    · rw [Option.none_or, ComesTo, ends_bind]
      refine ends_adopted hcovers h fun dr' h' => ?_
      rcases d.id.bind fun id => c.snapshot.find? k.kind id with _ | r
      · exact comesTo_planCreate h'
      · exact comesTo_planUpdate h'
    · exact comesTo_planUpdate h

/-- An act for every member of a list that does one task each. -/
theorem does_forEach_singleton {α : Type} {act : α → Drafting Unit} {t : α → Task} {l : List α}
    (h : ∀ a ∈ l, c.Does (act a) [t a]) : c.Does (Drafting.forEach act l) (l.map t) := by
  rw [List.map_eq_flatMap]
  exact does_forEach h

/-- A planner of declared resources does its tasks in a namespace. -/
theorem does_draft (c : Scene) (k : KindPlanner) (hscope : IsScope scope) :
    c.Does (k.draft (c.assignment scope)) (c.tasksOf scope k) := by
  intro dr s h
  obtain ⟨session, hlist, hfaithful⟩ := Session.list_scope_ofSnapshot h.faithful hscope k.kind
  have hasked : Draft.Shows c.snapshot { dr with session := session } s := h.asked hfaithful
  unfold KindPlanner.draft tasksOf
  rw [ends_bind]
  refine (ends_ask hlist).mpr ?_
  rw [ends_bind]
  rcases hcovers : c.snapshot.covers k.kind with _ | _
  · rw [Snapshot.list, hcovers]
    exact ends_pure.mpr (does_pure _ s hasked)
  · rw [Snapshot.list_singleton hcovers]
    refine ends_pure.mpr ?_
    refine Does.bind (does_forEach_singleton fun d _ => does_planDeclared hcovers) ?_ _ s hasked
    rw [assignment]
    rcases c.mode with _ | _
    · exact does_pure
    · exact does_forEach_singleton fun r _ => does_singleton fun _ _ hs => comesTo_planDelete hs

/-- **All planners together do the tasks of the pass.** -/
theorem does_draftAll (c : Scene) (ks : List KindPlanner) :
    c.Does (draftAll (.ofSnapshot c.snapshot) c.accessors (ks.map KindPlanner.toPlanner) c.desired
      c.mode) (c.tasks ks) := by
  unfold draftAll tasks
  refine does_forEach fun scope hscope => ?_
  rw [forEach_map]
  exact does_forEach fun k _ => does_draft c k (isScope_of_mem_planningScopes hscope)

end Scene

end Reconcile
