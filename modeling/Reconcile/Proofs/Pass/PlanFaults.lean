import Reconcile.Proofs.Drafting.Issued
import Reconcile.Proofs.Pass.Finishing
import Reconcile.Proofs.Pass.Moves

/-!
# Proofs/Pass/PlanFaults — a batch can only fail by its circles

A plan is closed when its identifiers are distinct and can be read, and whatever its changes and
warnings name is one of them (`Plan.Closed`).  The draft of a pass is closed, and resolution and the
links between deletes leave it so, whatever the remote side answers; so ordering it can only fail
where changes wait for each other, and what is ordered can be numbered.  Main facts:
`Plan.Closed.cycle_of_finishPlan` and `cycle_of_generatePlan`.
-/

namespace Reconcile

open Relation (ReflTransGen)

/-! ## Closed plans -/

/-- **All that a plan names is in it**, under distinct identifiers that can be read. -/
structure Plan.Closed (p : Plan) : Prop where
  nodup : p.ids.Nodup
  readable : ∀ id ∈ p.ids, (ChangeId.parse? id).isSome = true
  known : ∀ e ∈ p.changes, e.dependsOn ⊆ p.ids
  warned : ∀ w ∈ p.warnings, w.changeId ∈ p.ids

namespace Plan.Closed

variable {p q : Plan}

/-- A plan with the same identifiers that names nothing else is closed too. -/
theorem of_ids (h : p.Closed) (hids : q.ids = p.ids) (hknown : ∀ e ∈ q.changes, e.dependsOn ⊆ p.ids)
    (hwarned : ∀ w ∈ q.warnings, w.changeId ∈ p.ids) : q.Closed :=
  ⟨hids ▸ h.nodup, hids ▸ h.readable, hids ▸ hknown, hids ▸ hwarned⟩

/-- Links between deletes leave a plan closed. -/
theorem linkDeletes (h : p.Closed) :
    Plan.Closed { p with changes := linkDeletes p.changes } := by
  refine h.of_ids (ids_linkDeletes p.changes) (fun e he d hd => ?_) h.warned
  obtain ⟨c, hc, rfl⟩ := List.mem_map.mp he
  rcases Change.mem_dependsOn_addDependencies.mp hd with hlisted | ⟨hlink, -⟩
  · exact h.known c hc hlisted
  · obtain ⟨b, hb, -, rfl⟩ := mem_deleteLinks.mp hlink
    exact List.mem_map_of_mem hb

/-- A closed plan that is ordered can be numbered. -/
theorem numberable (h : p.Closed) {order : List String}
    (horder : executionOrder p.changes = .ok order) : p.Numberable order where
  nodup := h.nodup
  perm := (ordering_of_ok horder).perm
  readable := h.readable
  known := h.known
  warned := h.warned

/-- **Ordering a closed plan can only fail by a circle.** -/
theorem cycle_of_executionOrder (h : p.Closed) {fault : PlanFault}
    (hfault : executionOrder p.changes = .error fault) :
    ∃ ids details, fault = .cycle ids details := by
  -- of the three reports, two are on identifiers that are repeated or missing
  have hnodup : (p.changes.map (·.id)).Nodup := h.nodup
  unfold executionOrder at hfault
  rw [firstRepeated?_eq_none.mpr hnodup, danglingDependency?_eq_none.mpr h.known] at hfault
  dsimp only at hfault
  split at hfault
  · exact absurd hfault (by simp)
  · exact ⟨_, _, (Except.error.inj hfault).symm⟩

/-- **Finishing a closed plan can only fail by a circle.** -/
theorem cycle_of_finishPlan (h : p.Closed) {e : Failure} (he : finishPlan p = .error e) :
    ∃ ids details, e = .plan (.cycle ids details) := by
  have hlinked := h.linkDeletes
  unfold finishPlan at he
  dsimp only at he
  split at he
  · next fault hfault =>
    obtain ⟨ids, details, rfl⟩ := hlinked.cycle_of_executionOrder hfault
    exact ⟨ids, details, (Except.error.inj he).symm⟩
  · next order horder =>
    obtain ⟨q, hq⟩ := Plan.exists_renumber_iff.mpr (hlinked.numberable horder)
    rw [hq] at he
    exact absurd he (by simp)

end Plan.Closed

/-! ## Drafts -/

/-- **The changes of a draft follow each other**: they are numbered one after the other, are of the
kinds that are planned, and depend on changes of the draft; nothing is remarked on them yet. -/
structure Draft.Orderly (kinds : List String) (d : Draft) : Prop where
  counted : Sketch.Counted ⟨d.plan.changes, d.issued, d.violations⟩
  kind : ∀ e ∈ d.plan.changes, e.kind ∈ kinds
  known : ∀ e ∈ d.plan.changes, e.dependsOn ⊆ d.plan.ids
  warnings : d.plan.warnings = []

theorem orderly_of_move {p : Provider} {kinds : List String} (d d' : Draft) (hd : d.Orderly kinds)
    (h : d.Move p kinds d') : d'.Orderly kinds := by
  cases h with
  | asked hgoes => exact ⟨hd.counted, hd.kind, hd.known, hd.warnings⟩
  | noted v => exact ⟨⟨hd.counted.issued, hd.counted.id⟩, hd.kind, hd.known, hd.warnings⟩
  | @added e hfits =>
    have hids : (d.plan.addChange e).ids = d.plan.ids ++ [e.id] := List.map_append
    refine ⟨hd.counted.add hfits.id, ?_, ?_, hd.warnings⟩
    · exact List.forall_mem_append.mpr ⟨hd.kind, by simpa using hfits.kind⟩
    · rw [hids]
      refine List.forall_mem_append.mpr ⟨fun b hb => ?_, fun b hb => ?_⟩
      · exact List.subset_append_of_subset_left _ (hd.known b hb)
      · obtain rfl := List.mem_singleton.mp hb
        exact List.subset_append_of_subset_left _ hfits.dependsOn

/-- **Until the counter overflows, an orderly draft is closed**, if its kinds can be read out of
identifiers. -/
theorem Draft.Orderly.closed {kinds : List String} {d : Draft} (h : d.Orderly kinds)
    (hkinds : ∀ kind ∈ kinds, kind ≠ "" ∧ ':' ∉ kind.toList)
    (hfew : d.plan.changes.length < ChangeId.positionLimit) : d.plan.Closed where
  nodup := h.counted.nodup_ids hfew.le
  readable id hid := by
    obtain ⟨e, he, rfl⟩ := List.mem_map.mp hid
    obtain ⟨n, hn, htext⟩ := h.counted.exists_id_eq he
    obtain ⟨hkind, hcolon⟩ := hkinds e.kind (h.kind e he)
    rw [htext]
    exact ChangeId.isSome_parse?_of_kind hn hkind hcolon
  known := h.known
  warned := by
    rw [h.warnings]
    exact fun w hw => absurd hw List.not_mem_nil

/-! ## Resolution -/

/-- What is said in a run of resolution is of changes of the batch: the change at hand keeps its
identifier, and it depends on changes of the batch, as warnings are on changes of the batch. -/
structure Progress.Within (ids : List String) (id : String) (g : Progress) : Prop where
  id : g.change.id = id
  known : g.change.dependsOn ⊆ ids
  warned : ∀ w ∈ g.tally.warnings, w.changeId ∈ ids

theorem within_of_move {s : Surroundings} {p : Provider} {ids : List String} {id : String}
    (hupcoming : ∀ u ∈ s.upcoming, u.id ∈ ids) (hid : id ∈ ids) (g g' : Progress)
    (hg : g.Within ids id) (h : Progress.Move s p g g') : g'.Within ids id := by
  cases h with
  | asked hgoes => exact ⟨hg.id, hg.known, hg.warned⟩
  | @awaited u hu =>
    refine ⟨(g.change.extends_addDependency u.id).id.trans hg.id, fun d hd => ?_, hg.warned⟩
    rcases Change.mem_dependsOn_addDependency.mp hd with hlisted | ⟨rfl, -⟩
    · exact hg.known hlisted
    · exact hupcoming u hu
  | written references parent => exact ⟨hg.id, hg.known, hg.warned⟩
  | counted => exact ⟨hg.id, hg.known, hg.warned⟩
  | warned field target =>
    refine ⟨hg.id, hg.known, List.forall_mem_append.mpr ⟨hg.warned, fun w hw => ?_⟩⟩
    obtain rfl := List.mem_singleton.mp hw
    exact hg.id ▸ hid
  | faulted hf => exact ⟨hg.id, hg.known, hg.warned⟩

/-- **Resolving a batch** keeps its identifiers, and names nothing else. -/
theorem named_of_resolveChanges {s : Surroundings} {p : Provider} {ids : List String}
    (hupcoming : ∀ u ∈ s.upcoming, u.id ∈ ids) {changes changes' : List Change}
    {tally tally' : Tally} {session session' : Session} (hids : ∀ e ∈ changes, e.id ∈ ids)
    (hknown : ∀ e ∈ changes, e.dependsOn ⊆ ids) (hwarned : ∀ w ∈ tally.warnings, w.changeId ∈ ids)
    (h : Resolution.resolveChanges s p changes tally session = (.ok tally', changes', session')) :
    changes'.map (·.id) = changes.map (·.id) ∧ (∀ e ∈ changes', e.dependsOn ⊆ ids)
      ∧ ∀ w ∈ tally'.warnings, w.changeId ∈ ids := by
  induction changes generalizing tally session changes' with
  | nil =>
    obtain ⟨htally, hrest⟩ := Prod.mk.inj h
    obtain rfl := Except.ok.inj htally
    obtain rfl := (Prod.mk.inj hrest).1
    exact ⟨rfl, hknown, hwarned⟩
  | cons c rest ih =>
    obtain ⟨hid, hids⟩ := List.forall_mem_cons.mp hids
    obtain ⟨hfirst, hknown⟩ := List.forall_mem_cons.mp hknown
    rcases Resolution.resolveChanges_cons_ok h with ⟨-, rest', rfl, hrest⟩
      | ⟨-, g, rest', hrun, rfl, hrest⟩
    · obtain ⟨hsame, hknown', hwarned'⟩ := ih hids hknown hwarned hrest
      exact ⟨by rw [List.map_cons, List.map_cons, hsame],
        List.forall_mem_cons.mpr ⟨hfirst, hknown'⟩, hwarned'⟩
    · obtain ⟨-, hg⟩ := (ends_of_run_ok hrun).mp ((Resolution.walks_resolveChange s p c).ends
        (E := fun _ _ => True) (I := Progress.Within ids c.id) (within_of_move hupcoming hid)
        (fun _ _ _ _ _ => trivial) ⟨rfl, hfirst, hwarned⟩)
      obtain ⟨hsame, hknown', hwarned'⟩ := ih hids hknown hg.warned hrest
      exact ⟨by rw [List.map_cons, List.map_cons, hsame, hg.id],
        List.forall_mem_cons.mpr ⟨hg.known, hknown'⟩, hwarned'⟩

section Resolving

variable {p : Provider} {accessors : Accessors Declaration} {desired : DesiredState} {plan : Plan}
  {session session' : Session}

/-- Resolving the references of a plan resolves its changes, and warns of what it finds. -/
theorem resolveChanges_of_resolvePlan {plan' : Plan}
    (h : resolvePlan p accessors desired plan session = (.ok plan', session')) :
    ∃ tally, Resolution.resolveChanges ⟨upcomingOf plan.changes, desired.index, accessors⟩ p
        plan.changes {} session = (.ok tally, plan'.changes, session')
      ∧ plan'.warnings = plan.warnings ++ tally.warnings := by
  unfold resolvePlan resolveReferences at h
  rcases hresolve : Resolution.resolveChanges ⟨upcomingOf plan.changes, desired.index, accessors⟩ p
    plan.changes {} session with ⟨e | tally, changes, session₁⟩ <;> rw [hresolve] at h
  · exact absurd (Prod.mk.inj h).1 (by simp)
  dsimp only at h
  split at h
  · obtain ⟨hplan, rfl⟩ := Prod.mk.inj h
    obtain rfl := Except.ok.inj hplan
    exact ⟨tally, rfl, rfl⟩
  · exact absurd (Prod.mk.inj h).1 (by simp)

/-- **Resolution leaves a plan closed.** -/
theorem Plan.Closed.resolved {plan' : Plan} (hplan : plan.Closed)
    (h : resolvePlan p accessors desired plan session = (.ok plan', session')) : plan'.Closed := by
  obtain ⟨tally, hresolve, hwarnings⟩ := resolveChanges_of_resolvePlan h
  have hupcoming : ∀ u ∈ upcomingOf plan.changes, u.id ∈ plan.ids := fun u hu => by
    obtain ⟨c, hc, rfl⟩ := List.mem_map.mp hu
    exact List.mem_map_of_mem (List.mem_filter.mp hc).1
  obtain ⟨hsame, hknown, hwarned⟩ := named_of_resolveChanges hupcoming
    (fun e he => List.mem_map_of_mem he) hplan.known (fun w hw => absurd hw List.not_mem_nil)
    hresolve
  refine hplan.of_ids hsame hknown ?_
  rw [hwarnings]
  exact List.forall_mem_append.mpr ⟨hplan.warned, hwarned⟩

/-- Resolving references fails for the remote side or for references alone. -/
theorem resolvePlan_ne_plan {fault : PlanFault} :
    resolvePlan p accessors desired plan session ≠ (.error (.plan fault), session') := by
  unfold resolvePlan
  rcases resolveReferences p desired.index accessors plan.changes session with
    ⟨e | tally, changes, session₁⟩
  · simp
  · dsimp only
    split <;> simp

end Resolving

/-! ## Passes -/

section Passes

variable {p : Provider} {accessors : Accessors Declaration} {ks : List KindPlanner}
  {state desired : DesiredState} {options : PassOptions} {now : Timestamp}

/-- **The draft of a pass is orderly.** -/
theorem orderly_of_draftOf? {d : Draft}
    (h : draftOf? p accessors (ks.map KindPlanner.toPlanner) state options now
      = some (desired, d)) :
    d.Orderly (ks.map KindPlanner.kind) := by
  obtain ⟨session, -, hmoves⟩ := moves_of_draftOf? h
  have hfirst : (firstDraft state options now session).Orderly (ks.map KindPlanner.kind) :=
    ⟨⟨rfl, fun i e he => absurd he (by simp [firstDraft, Plan.start])⟩,
      fun e he => absurd he List.not_mem_nil, fun e he => absurd he List.not_mem_nil, rfl⟩
  exact kept_of_moves orderly_of_move hfirst hmoves

/-- Identities are resolved without a look at any batch. -/
theorem resolveIdentities_ne_plan {fault : PlanFault} {session : Session} :
    state.resolveIdentities p {} ≠ (.error (.plan fault), session) := by
  intro h
  have hmatched := matchedBy_resolveIdentities p state {}
  rw [h] at hmatched
  cases hmatched

/-- **Where a pass fails for its batch, changes wait for each other in a circle**: no identifier is
given twice or cannot be read, no dependency or order is wrong.  The kinds that are planned must not
be empty or hold a colon, and there must be fewer changes than positions. -/
theorem cycle_of_generatePlan (hkinds : ∀ k ∈ ks, k.kind ≠ "" ∧ ':' ∉ k.kind.toList)
    (hfew : ∀ desired d, draftOf? p accessors (ks.map KindPlanner.toPlanner) state options now
      = some (desired, d) → d.plan.changes.length < ChangeId.positionLimit)
    {fault : PlanFault} (h : (generatePlan p accessors (ks.map KindPlanner.toPlanner) state options
      now).1 = .error (.plan fault)) : ∃ ids details, fault = .cycle ids details := by
  have hends := passEnds_generatePlan p accessors (ks.map KindPlanner.toPlanner) state options now
  generalize generatePlan p accessors (ks.map KindPlanner.toPlanner) state options now = result
    at hends h
  cases hends with
  | unidentified hidentities =>
    rw [Except.error.inj h] at hidentities
    exact absurd hidentities resolveIdentities_ne_plan
  | @undrafted desired session e d hidentities hdraft =>
    obtain ⟨t, -, hstop⟩ := (ends_of_run_error hdraft).mp
      (walks_draftAll p accessors ks desired options.mode _)
    rw [Except.error.inj h] at hstop
    cases hstop
  | forbidden hdraft hviolations => exact absurd h (by simp)
  | unresolved hdraft hlawful hresolve =>
    rw [Except.error.inj h] at hresolve
    exact absurd hresolve resolvePlan_ne_plan
  | resolved hdraft hlawful hresolve =>
    have hclosed := (orderly_of_draftOf? hdraft).closed (by simpa using hkinds) (hfew _ _ hdraft)
    obtain ⟨ids, details, heq⟩ := (hclosed.resolved hresolve).cycle_of_finishPlan h
    exact ⟨ids, details, Failure.plan.inj heq⟩

end Passes

/-- Two apis that do not exist yet and point at each other. -/
def mutualApis : DesiredState where
  resources := [
    { kind := "api", ref := "left", name := "Left",
      fields := Dict.singleton "api_id" (.reference (.toId "right")) },
    { kind := "api", ref := "right", name := "Right",
      fields := Dict.singleton "api_id" (.reference (.toId "left")) }]

/-- A result that is seen to be a failure is that failure. -/
theorem eq_error_of_decide {ε α : Type} [DecidableEq ε] {x : Except ε α} {e : ε}
    (h : (match x with | .error e' => decide (e' = e) | .ok _ => false) = true) : x = .error e := by
  rcases x with e' | a
  · exact congrArg Except.error (of_decide_eq_true h)
  · exact absurd h (by simp)

theorem cycle_mutualApis : ∃ fault,
    (generatePlan (.ofSnapshot {}) standardAccessors ([{ kind := "api" }].map KindPlanner.toPlanner)
      mutualApis {} ⟨0, 0⟩).1 = .error (.plan fault)
    ∧ fault.message = "circular dependency detected in plan: "
      ++ "1:c:api:left -> 2:c:api:right -> 1:c:api:left"
    ∧ ∃ ids details, fault = .cycle ids details := by
  have hfault : (generatePlan (.ofSnapshot {}) standardAccessors
      ([{ kind := "api" }].map KindPlanner.toPlanner) mutualApis {} ⟨0, 0⟩).1
      = .error (.plan (.cycle ["1:c:api:left", "2:c:api:right"]
        "1:c:api:left -> 2:c:api:right -> 1:c:api:left")) :=
    eq_error_of_decide (by decide +kernel)
  have hfew : (draftOf? (.ofSnapshot {}) standardAccessors
      ([{ kind := "api" }].map KindPlanner.toPlanner) mutualApis {} ⟨0, 0⟩).all
        (fun x => decide (x.2.plan.changes.length < ChangeId.positionLimit)) = true := by
    decide +kernel
  refine ⟨_, hfault, by decide, ?_⟩
  refine cycle_of_generatePlan (by decide) (fun desired d hdraft => ?_) hfault
  rw [hdraft] at hfew
  exact of_decide_eq_true hfew

end Reconcile
