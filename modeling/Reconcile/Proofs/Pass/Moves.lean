import Reconcile.Proofs.Ends
import Reconcile.Proofs.Resolution.Findings

/-!
# Proofs/Pass/Moves — what the stages of a pass are made of

Whatever the remote side answers, a stage of a pass does one small thing after the other.  It asks
something and goes on (`Session.GoesOn`) or has to stop (`Session.Breaks`), adds a change that fits
the draft (`Draft.Move`), or writes down what was found for a reference (`Progress.Move`).  Main
facts: `matchedBy_resolveIdentities`, `walks_draftAll` and `Resolution.walks_resolveChange` for the
stages, and `passEnds_generatePlan` for the pass.
-/

namespace Reconcile

open Relation (ReflTransGen)

/-! ## Asking -/

namespace Session

variable {p : Provider}

/-- What can be asked in a pass: a listing, or the resource with an identifier. -/
inductive Asking (p : Provider) : {α : Type} → (Session → Except StateFault α × Session) → Prop
  | list (kind : String) (namespaces : List String) : Asking p (Session.list p kind namespaces)
  | get (kind id : String) : Asking p (Session.get p kind id)

/-- **A session goes on**: something is asked, and it is answered or lies in a kind that the remote
side does not know. -/
inductive GoesOn (p : Provider) (s : Session) : Session → Prop
  | asked {α : Type} {question : Session → Except StateFault α × Session}
      {answer : Except StateFault α} {s' : Session} (hasking : Asking p question)
      (h : question s = (answer, s'))
      (hspared : ∀ e, answer = .error e → e.isNotConfigured = true) : GoesOn p s s'

/-- **A session breaks**: something is asked and the remote side fails. -/
inductive Breaks (p : Provider) (s : Session) : StateFault → Session → Prop
  | asked {α : Type} {question : Session → Except StateFault α × Session} {e : StateFault}
      {s' : Session} (hasking : Asking p question) (h : question s = (.error e, s'))
      (hreal : e.isNotConfigured = false) : Breaks p s e s'

/-- Something is asked: the session goes on or breaks. -/
theorem goesOn_or_breaks {α : Type} {question : Session → Except StateFault α × Session}
    (hasking : Asking p question) (s : Session) :
    (∃ answer s', question s = (answer, s') ∧ s.GoesOn p s'
      ∧ ∀ e, answer = .error e → e.isNotConfigured = true)
    ∨ ∃ e s', question s = (.error e, s') ∧ s.Breaks p e s' ∧ e.isNotConfigured = false := by
  rcases h : question s with ⟨e | a, s'⟩
  · rcases hunknown : e.isNotConfigured with _ | _
    · exact .inr ⟨e, s', rfl, .asked hasking h hunknown, hunknown⟩
    · have hspared : ∀ e', (.error e : Except StateFault α) = .error e'
          → e'.isNotConfigured = true := fun _ he => Except.error.inj he ▸ hunknown
      exact .inl ⟨_, s', rfl, .asked hasking h hspared, hspared⟩
  · have hspared : ∀ e', (.ok a : Except StateFault α) = .error e'
        → e'.isNotConfigured = true := fun _ he => absurd he (by simp)
    exact .inl ⟨_, s', rfl, .asked hasking h hspared, hspared⟩

end Session

/-! ## Identities -/

section Identities

variable {p : Provider} {s : DesiredState}

/-- **What came of matching declarations**: the session went on, and where the remote side failed it
broke in the end. -/
inductive Session.MatchedBy (p : Provider) (session : Session) {α : Type} :
    Except Failure α × Session → Prop
  | matched {a : α} {session' : Session} (h : ReflTransGen (GoesOn p) session session') :
      MatchedBy p session (.ok a, session')
  | absent {fault : DocumentFault} {session' : Session}
      (h : ReflTransGen (GoesOn p) session session') :
      MatchedBy p session (.error (.document fault), session')
  | failed {e : StateFault} {session₁ session' : Session}
      (h : ReflTransGen (GoesOn p) session session₁) (hbreaks : session₁.Breaks p e session') :
      MatchedBy p session (.error (.state e), session')

theorem matchedBy_matchDeclaration (d : Declaration) (session : Session) :
    session.MatchedBy p (matchDeclaration p s d session) := by
  unfold matchDeclaration
  rcases d.id with _ | id
  · rcases Session.goesOn_or_breaks (.list d.kind [wildcard]) session with
      ⟨answer, session', h, hgoes, hspared⟩ | ⟨e, session', h, hbreaks, hreal⟩
    · dsimp only [Session.listAll]
      rw [h]
      rcases answer with e | rs
      · dsimp only
        rw [hspared e rfl]
        exact .matched (.single hgoes)
      · exact .matched (.single hgoes)
    · dsimp only [Session.listAll]
      rw [h]
      dsimp only
      rw [hreal]
      exact .failed .refl hbreaks
  · rcases Session.goesOn_or_breaks (.get d.kind id) session with
      ⟨answer, session', h, hgoes, hspared⟩ | ⟨e, session', h, hbreaks, hreal⟩
    · dsimp only
      rw [h]
      rcases answer with e | _ | r
      · dsimp only
        rw [hspared e rfl]
        exact .matched (.single hgoes)
      · exact .absent (.single hgoes)
      · exact .matched (.single hgoes)
    · dsimp only
      rw [h]
      dsimp only
      rw [hreal]
      exact .failed .refl hbreaks

/-- What has been asked before belongs to what came of the whole. -/
theorem Session.MatchedBy.behind {session session₁ : Session} {α : Type}
    {result : Except Failure α × Session} (hbefore : ReflTransGen (GoesOn p) session session₁)
    (h : session₁.MatchedBy p result) : session.MatchedBy p result := by
  cases h with
  | matched h => exact .matched (hbefore.trans h)
  | absent h => exact .absent (hbefore.trans h)
  | failed h hbreaks => exact .failed (hbefore.trans h) hbreaks

/-- What is made of the declarations does not matter. -/
theorem Session.MatchedBy.map {session : Session} {α β : Type} {result : Except Failure α × Session}
    (h : session.MatchedBy p result) (f : α → β) :
    session.MatchedBy p (result.1.map f, result.2) := by
  cases h with
  | matched h => exact .matched h
  | absent h => exact .absent h
  | failed h hbreaks => exact .failed h hbreaks

theorem matchedBy_matchDeclarations (ds : List Declaration) (session : Session) :
    session.MatchedBy p (matchDeclarations p s ds session) := by
  induction ds generalizing session with
  | nil => exact .matched .refl
  | cons d rest ih =>
    have hfirst := matchedBy_matchDeclaration (p := p) (s := s) d session
    rw [matchDeclarations]
    rcases h : matchDeclaration p s d session with ⟨e | d', session₁⟩ <;> rw [h] at hfirst
    · exact hfirst.map fun _ => []
    · obtain ⟨hgoes⟩ := hfirst
      have hrest := ((ih session₁).behind hgoes).map (d' :: ·)
      dsimp only
      rcases h : matchDeclarations p s rest session₁ with ⟨e | ds', session₂⟩ <;> rw [h] at hrest
      · exact hrest
      · exact hrest

/-- **Resolving identities** goes on to the end, finds a declared identifier absent, or breaks. -/
theorem matchedBy_resolveIdentities (p : Provider) (s : DesiredState) (session : Session) :
    session.MatchedBy p (s.resolveIdentities p session) := by
  have hall := (matchedBy_matchDeclarations (p := p) (s := s) s.resources session).map
    fun ds => { s with resources := ds }
  unfold DesiredState.resolveIdentities
  rcases h : matchDeclarations p s s.resources session with ⟨e | ds, session'⟩ <;> rw [h] at hall
  · exact hall
  · exact hall

end Identities

/-! ## Drafting -/

/-- **A change fits a draft**: it has the next identifier, is of one of the kinds that are planned,
and depends on changes of the draft. -/
structure Draft.Fits (kinds : List String) (d : Draft) (e : Change) : Prop where
  id : e.id = freshId d.issued e.action e.kind e.ref
  kind : e.kind ∈ kinds
  dependsOn : e.dependsOn ⊆ d.plan.ids

/-- **What drafting is made of**: questions, violations that are noted, and changes that fit. -/
inductive Draft.Move (p : Provider) (kinds : List String) (d : Draft) : Draft → Prop
  | asked {session : Session} (h : d.session.GoesOn p session) :
      Move p kinds d { d with session := session }
  | noted (v : Violation) : Move p kinds d { d with violations := d.violations ++ [v] }
  | added {e : Change} (h : d.Fits kinds e) :
      Move p kinds d { d with plan := d.plan.addChange e, issued := d.issued + 1 }

/-- Where drafting stops: the remote side fails, or a change is refused. -/
inductive Draft.Stop (p : Provider) (d : Draft) : Failure → Draft → Prop
  | failed {e : StateFault} {session : Session} (h : d.session.Breaks p e session) :
      Stop p d (.state e) { d with session := session }
  | refused (fault : DocumentFault) : Stop p d (.document fault) d

namespace KindPlanner

variable {p : Provider} {kinds : List String} {α β : Type} {a : Assignment} {k : KindPlanner}
  {d : Declaration} {r : Resource}

/-- A step of drafting is made of moves. -/
abbrev Drafts (p : Provider) (kinds : List String) {α : Type} (x : Drafting α) : Prop :=
  Walks (Draft.Move p kinds) (Draft.Stop p) x fun _ => True

theorem drafts_read (f : Draft → α) : Drafts p kinds (Drafting.read f) := by
  intro dr
  have hrun : (Drafting.read f).run.run dr = (.ok (f dr), dr) := rfl
  exact (ends_of_run_ok hrun).mpr ⟨trivial, .refl⟩

theorem drafts_permitted (violation : Option Violation) :
    Drafts p kinds (Drafting.permitted violation) := by
  intro dr
  rcases violation with _ | v
  · have hrun : (Drafting.permitted none).run.run dr = (.ok true, dr) := rfl
    exact (ends_of_run_ok hrun).mpr ⟨trivial, .refl⟩
  · have hrun : (Drafting.permitted (some v)).run.run dr
        = (.ok false, { dr with violations := dr.violations ++ [v] }) := rfl
    exact (ends_of_run_ok hrun).mpr ⟨trivial, .single (.noted v)⟩

/-- **Asking, and then what is done with the answer**: what is real among the failures stops. -/
theorem drafts_ask {question : Session → Except StateFault α × Session}
    (hasking : Session.Asking p question) {f : Except StateFault α → Drafting β}
    (hf : ∀ answer, (∀ e, answer = .error e → e.isNotConfigured = true) → Drafts p kinds (f answer))
    (hreal : ∀ e, e.isNotConfigured = false → f (.error e) = throw (.state e)) :
    Drafts p kinds (Drafting.ask question >>= f) := by
  intro dr
  refine ends_bind.mpr ?_
  rcases Session.goesOn_or_breaks hasking dr.session with
    ⟨answer, session, h, hgoes, hspared⟩ | ⟨e, session, h, hbreaks, he⟩
  · have hrun : (Drafting.ask question).run.run dr
        = (.ok answer, { dr with session := session }) := by
      simp only [Drafting.ask, ExceptT.run, StateT.run, h]
    exact (ends_of_run_ok hrun).mpr ((hf answer hspared).behind (.single (.asked hgoes)))
  · have hrun : (Drafting.ask question).run.run dr
        = (.ok (.error e), { dr with session := session }) := by
      simp only [Drafting.ask, ExceptT.run, StateT.run, h]
    rw [ends_of_run_ok hrun, hreal e he]
    exact (ends_of_run_error rfl).mpr ⟨dr, .refl, .failed hbreaks⟩

theorem drafts_orUnknown {unknown : α} {answer : Except StateFault α}
    (h : ∀ e, answer = .error e → e.isNotConfigured = true) :
    Drafts p kinds (Drafting.orUnknown unknown answer) := by
  rcases answer with e | a
  · rw [Drafting.orUnknown, if_pos (h e rfl)]
    exact walks_pure trivial
  · exact walks_pure trivial

/-- A change that fits is added, or refused. -/
theorem drafts_addOrFail {build : Issued → Except DocumentFault (Change × Issued)} {dr : Draft}
    (h : ∀ x, build dr.issued = .ok x → dr.Fits kinds x.1 ∧ x.2 = dr.issued + 1) :
    WalksFrom (Draft.Move p kinds) (Draft.Stop p) (Drafting.addOrFail build) dr fun _ => True := by
  rcases hbuild : build dr.issued with fault | ⟨e, issued⟩
  · have hrun : (Drafting.addOrFail build).run.run dr = (.error (.document fault), dr) := by
      simp only [Drafting.addOrFail, ExceptT.run, StateT.run, hbuild]
    exact (ends_of_run_error hrun).mpr ⟨dr, .refl, .refused fault⟩
  · obtain ⟨hfits, rfl⟩ := h _ hbuild
    have hrun : (Drafting.addOrFail build).run.run dr
        = (.ok (), { dr with plan := dr.plan.addChange e, issued := dr.issued + 1 }) := by
      simp only [Drafting.addOrFail, ExceptT.run, StateT.run, hbuild]
    exact (ends_of_run_ok hrun).mpr ⟨trivial, .single (.added hfits)⟩

theorem drafts_add {build : Issued → Change × Issued}
    (h : ∀ dr : Draft, dr.Fits kinds (build dr.issued).1 ∧ (build dr.issued).2 = dr.issued + 1) :
    Drafts p kinds (Drafting.add build) := by
  intro dr
  obtain ⟨hfits, hissued⟩ := h dr
  have hrun : (Drafting.add build).run.run dr
      = (.ok (), { dr with
          plan := dr.plan.addChange (build dr.issued).1
          issued := dr.issued + 1 }) := by
    simp only [Drafting.add, Drafting.update, ExceptT.run, StateT.run, hissued]
  exact (ends_of_run_ok hrun).mpr ⟨trivial, .single (.added hfits)⟩

/-- What is created fits, if the create of its parent is in the draft. -/
theorem fits_create {req : CreateRequest} {dr : Draft} (hkind : req.kind ∈ kinds)
    (hdeps : req.dependsOn ⊆ dr.plan.ids) {x : Change × Issued}
    (h : req.build dr.issued = .ok x) : dr.Fits kinds x.1 ∧ x.2 = dr.issued + 1 := by
  obtain rfl := CreateRequest.eq_of_build h
  exact ⟨⟨rfl, hkind, hdeps⟩, rfl⟩

theorem fits_update {req : UpdateRequest} {dr : Draft} (hkind : req.kind ∈ kinds)
    (hdeps : req.dependsOn ⊆ dr.plan.ids) {x : Change × Issued}
    (h : req.build dr.issued = .ok x) : dr.Fits kinds x.1 ∧ x.2 = dr.issued + 1 := by
  obtain rfl := UpdateRequest.eq_of_build h
  exact ⟨⟨rfl, hkind, hdeps⟩, rfl⟩

theorem drafts_planCreate (hkind : k.kind ∈ kinds) : Drafts p kinds (k.planCreate a d) := by
  intro dr
  unfold planCreate
  dsimp only
  refine ends_bind.mpr ?_
  -- the plan that is read is the one that the create is added to, so its parent's create is there
  have hrun : (Drafting.read (·.plan)).run.run dr = (.ok dr.plan, dr) := rfl
  refine (ends_of_run_ok hrun).mpr (drafts_addOrFail fun x => fits_create hkind ?_)
  dsimp only
  split
  · next parent _ =>
    split
    · intro id hid
      obtain ⟨c, hc, rfl⟩ := Option.map_eq_some_iff.mp (Option.mem_toList.mp hid)
      exact List.mem_map_of_mem (List.mem_of_find?_eq_some hc)
    · exact List.nil_subset _
  · exact List.nil_subset _

theorem drafts_planUpdate (hkind : k.kind ∈ kinds) : Drafts p kinds (k.planUpdate a d r) := by
  unfold planUpdate
  rcases k.compare d r with ⟨needsUpdate, fields⟩
  dsimp only
  split
  · exact walks_pure trivial
  · refine (drafts_permitted _).bind fun permitted _ => ?_
    split
    · split
      · exact drafts_add fun dr => ⟨⟨rfl, hkind, List.nil_subset _⟩, rfl⟩
      · exact fun dr => drafts_addOrFail fun x => fits_update hkind (List.nil_subset _)
    · exact walks_pure trivial

theorem drafts_planDelete (hkind : k.kind ∈ kinds) : Drafts p kinds (k.planDelete a r) := by
  unfold planDelete
  refine (drafts_permitted _).bind fun permitted _ => ?_
  split
  · exact drafts_add fun dr => ⟨⟨rfl, hkind, List.nil_subset _⟩, rfl⟩
  · exact walks_pure trivial

theorem drafts_adopted : Drafts a.provider kinds (k.adopted a d) := by
  unfold adopted
  rcases d.id with _ | id
  · exact walks_pure trivial
  · refine drafts_ask (.get k.kind id) (fun answer h => drafts_orUnknown h) fun e he => ?_
    rw [Drafting.orUnknown, he]
    rfl

theorem drafts_planDeclared (hkind : k.kind ∈ kinds) (current : List Resource) :
    Drafts a.provider kinds (k.planDeclared a current d) := by
  unfold planDeclared
  refine (drafts_read _).bind fun planned _ => ?_
  split
  · exact walks_pure trivial
  · split
    · exact drafts_planUpdate hkind
    · refine drafts_adopted.bind fun found _ => ?_
      split
      · exact drafts_planUpdate hkind
      · exact drafts_planCreate hkind

/-- A planner of declared resources drafts by moves. -/
theorem drafts_draft (hkind : k.kind ∈ kinds) : Drafts a.provider kinds (k.draft a) := by
  unfold draft
  refine drafts_ask (.list k.kind [a.scope]) (fun answer h => ?_) fun e he => ?_
  · refine (drafts_orUnknown fun e => ?_).bind fun current _ => ?_
    · rcases answer with e' | rs
      · exact fun he => h e (congrArg Except.error (Except.error.inj he))
      · exact fun he => absurd he (by simp [Except.map])
    · split
      · exact walks_pure trivial
      · next rs =>
        refine (walks_forEach fun d _ => drafts_planDeclared hkind rs).bind fun _ _ => ?_
        split
        · exact walks_forEach fun r _ => drafts_planDelete hkind
        · exact walks_pure trivial
  · rw [Except.map, Drafting.orUnknown, he]
    rfl

end KindPlanner

/-- **All planners of declared resources together draft by moves.** -/
theorem walks_draftAll (p : Provider) (accessors : Accessors Declaration) (ks : List KindPlanner)
    (desired : DesiredState) (mode : Mode) :
    Walks (Draft.Move p (ks.map KindPlanner.kind)) (Draft.Stop p)
      (draftAll p accessors (ks.map KindPlanner.toPlanner) desired mode) fun _ => True := by
  refine walks_forEach fun scope _ => walks_forEach fun planner hmem => ?_
  obtain ⟨k, hk, rfl⟩ := List.mem_map.mp hmem
  exact KindPlanner.drafts_draft (a := ⟨p, accessors, desired, scope, mode⟩)
    (List.mem_map_of_mem hk)

/-! ## Resolving a change -/

/-- **What resolving a change is made of**: questions, dependencies on creates of the batch, what is
written down in the change, and what is said of it. -/
inductive Progress.Move (s : Surroundings) (p : Provider) (g : Progress) : Progress → Prop
  | asked {session : Session} (h : g.session.GoesOn p session) :
      Move s p g { g with session := session }
  | awaited {u : Upcoming} (h : u ∈ s.upcoming) :
      Move s p g { g with change := g.change.addDependency u.id }
  | written (references : Dict ResolvedField) (parent : Option Parent) :
      Move s p g { g with change := { g.change with references := references, parent := parent } }
  | counted : Move s p g { g with tally := g.tally.addResolved }
  | warned (field target : String) :
      Move s p g { g with tally := g.tally.addUnknown g.change.id field target }
  | faulted {f : ReferenceFault} (h : f.changeId = g.change.id) :
      Move s p g { g with tally := g.tally.addFault f }

/-- Where resolving a change stops: the remote side fails. -/
inductive Progress.Stop (p : Provider) (g : Progress) : StateFault → Progress → Prop
  | failed {e : StateFault} {session : Session} (h : g.session.Breaks p e session) :
      Stop p g e { g with session := session }

namespace Resolution

variable {p : Provider} {s : Surroundings} {α : Type} {field : String}

/-- A step of resolution is made of moves. -/
abbrev Resolves (s : Surroundings) (p : Provider) (x : Resolve α) (P : α → Prop) : Prop :=
  Walks (Progress.Move s p) (Progress.Stop p) x P

/-- What a reference waits for is created in the batch. -/
def OfBatch (s : Surroundings) (finding : Finding) : Prop :=
  ∀ dependency name, finding = .pending dependency name → ∃ u ∈ s.upcoming, u.id = dependency

theorem ofBatch_conclude (r : Reference) (k name : String) (found : Option Resource) :
    OfBatch s (conclude r k name found) := by
  intro dependency name' hpending
  exact absurd hpending (Surroundings.conclude_ne_pending r k name found dependency name')

theorem ofBatch_examine {changeId : String} {kind : Option String} {r : Reference}
    {finding : Finding} (h : s.examine changeId kind r = .settled finding) :
    OfBatch s finding := by
  rintro dependency name rfl
  rcases Surroundings.examine_cases h with ⟨reason, h⟩ | ⟨value, name', h, -⟩ | ⟨u, name', h, hu⟩
  · exact absurd h (by simp)
  · exact absurd h (by simp)
  · exact ⟨u, (Surroundings.of_upcoming? hu).1, (Finding.pending.inj h).1.symm⟩

/-- **Deciding a reference** is at most one question, and what waits is created in the batch. -/
theorem resolves_decideReference (kind : Option String) (r : Reference) :
    Resolves s p (decideReference s p kind r) (OfBatch s) := by
  intro g
  rcases hexamine : s.examine g.change.id kind r with finding | ⟨k, name⟩
  · have hrun : (decideReference s p kind r).run.run g = (.ok finding, g) := by
      simp [decideReference, ExceptT.run, StateT.run, Surroundings.resolve, hexamine]
    exact (ends_of_run_ok hrun).mpr ⟨ofBatch_examine hexamine, .refl⟩
  · rcases Session.goesOn_or_breaks (p := p) (.list k [wildcard]) g.session with
      ⟨answer, session, h, hgoes, hspared⟩ | ⟨e, session, h, hbreaks, hreal⟩
    · obtain ⟨found, hrun⟩ : ∃ found, (decideReference s p kind r).run.run g
          = (.ok (conclude r k name found), { g with session := session }) := by
        rcases answer with e | rs
        · refine ⟨none, ?_⟩
          simp [decideReference, ExceptT.run, StateT.run, Surroundings.resolve, hexamine,
            Session.findByName, Session.listAll, h, Except.map, hspared e rfl]
        · refine ⟨rs.find? fun x => x.name == name, ?_⟩
          simp [decideReference, ExceptT.run, StateT.run, Surroundings.resolve, hexamine,
            Session.findByName, Session.listAll, h, Except.map]
      exact (ends_of_run_ok hrun).mpr ⟨ofBatch_conclude r k name found, .single (.asked hgoes)⟩
    · have hrun : (decideReference s p kind r).run.run g
          = (.error e, { g with session := session }) := by
        simp [decideReference, ExceptT.run, StateT.run, Surroundings.resolve, hexamine,
          Session.findByName, Session.listAll, h, Except.map, hreal]
      exact (ends_of_run_error hrun).mpr ⟨g, .refl, .failed hbreaks⟩

theorem resolves_update {f : Progress → Progress}
    (h : ∀ g, ReflTransGen (Progress.Move s p) g (f g)) :
    Resolves s p (update f) fun _ => True := by
  intro g
  have hrun : (update f).run.run g = (.ok (), f g) := rfl
  exact (ends_of_run_ok hrun).mpr ⟨trivial, h g⟩

theorem resolves_recordResolved : Resolves s p recordResolved fun _ => True :=
  resolves_update fun _ => .single .counted

theorem resolves_recordUnknown {target dependency : String}
    (h : ∃ u ∈ s.upcoming, u.id = dependency) :
    Resolves s p (recordUnknown field target dependency) fun _ => True := by
  obtain ⟨u, hu, rfl⟩ := h
  -- one update, told as two moves: the remark first, while the change is as it was
  exact resolves_update fun _ => .tail (.single (.warned field target)) (.awaited hu)

theorem resolves_recordFault (target : String) (kind : Option String) (reason : String) :
    Resolves s p (recordFault field target kind reason) fun _ => True :=
  resolves_update fun _ => .single (.faulted rfl)

theorem resolves_recordField (known : ResolvedField) :
    Resolves s p (recordField field known) fun _ => True :=
  resolves_update fun _ => .single (.written _ _)

theorem resolves_resolveScalar (r : Reference) :
    Resolves s p (resolveScalar s p field r) fun _ => True := by
  refine (resolves_decideReference _ r).bind fun finding hfinding => ?_
  rcases finding with ⟨value, name⟩ | ⟨dependency, name⟩ | ⟨kind, reason⟩
  · exact resolves_recordResolved.bind fun _ _ => resolves_recordField _
  · exact (resolves_recordUnknown (hfinding _ _ rfl)).bind fun _ _ => resolves_recordField _
  · exact resolves_recordFault _ _ _

theorem resolves_resolveItem (item : Value) :
    Resolves s p (resolveItem s p field item) fun _ => True := by
  unfold resolveItem
  dsimp only
  split
  · exact walks_pure trivial
  · split
    · exact (resolves_recordFault _ _ _).bind fun _ _ => walks_pure trivial
    · refine (resolves_decideReference _ _).bind fun finding hfinding => ?_
      rcases finding with ⟨value, name⟩ | ⟨dependency, name⟩ | ⟨kind, reason⟩
      · exact resolves_recordResolved.bind fun _ _ => walks_pure trivial
      · exact (resolves_recordUnknown (hfinding _ _ rfl)).bind fun _ _ => walks_pure trivial
      · exact (resolves_recordFault _ _ _).bind fun _ _ => walks_pure trivial

theorem resolves_resolveList (items : List Value) :
    Resolves s p (resolveList s p field items) fun _ => True := by
  refine (walks_mapM fun item _ => resolves_resolveItem item).bind fun found _ => ?_
  split
  · split
    · exact walks_pure trivial
    · exact resolves_recordField _
  · exact walks_pure trivial

theorem resolves_resolveField (v : Value) :
    Resolves s p (resolveField s p field v) fun _ => True := by
  unfold resolveField
  split
  · exact resolves_resolveList _
  · split
    · exact resolves_resolveScalar _
    · exact walks_pure trivial

theorem resolves_resolveFields (entries : List (String × Value)) :
    Resolves s p (resolveFields s p entries) fun _ => True := by
  induction entries with
  | nil => exact walks_pure trivial
  | cons e rest ih =>
    unfold resolveFields
    dsimp only
    split
    · exact (resolves_resolveField e.2).bind fun _ _ => ih
    · exact ih

theorem resolves_resolveParent (parent : Parent) :
    Resolves s p (resolveParent s p parent) fun _ => True := by
  refine (resolves_decideReference _ _).bind fun finding hfinding => ?_
  rcases finding with ⟨value, name⟩ | ⟨dependency, name⟩ | ⟨kind, reason⟩
  · refine (resolves_update fun g => ?_).bind fun _ _ => resolves_recordResolved
    exact .single (.written _ _)
  · obtain ⟨u, hu, rfl⟩ := hfinding _ _ rfl
    exact resolves_update fun _ => .single (.awaited hu)
  · exact resolves_recordFault _ _ _

/-- **Resolving a change is made of moves.** -/
theorem walks_resolveChange (s : Surroundings) (p : Provider) (c : Change) :
    Walks (Progress.Move s p) (Progress.Stop p) (resolveChange s p c) fun _ => True := by
  refine (resolves_resolveFields _).bind fun _ _ => ?_
  split
  · split
    · exact resolves_resolveParent _
    · exact walks_pure trivial
  · exact walks_pure trivial

end Resolution

/-! ## The pass -/

section Pass

variable (p : Provider) (accessors : Accessors Declaration) (planners : List Planner)
  (state : DesiredState) (options : PassOptions) (now : Timestamp)

/-- What a pass begins to draft with, once identities are resolved. -/
def firstDraft (session : Session) : Draft where
  plan := .start options.mode
    ((options.generator.or state.defaults.generator).getD Plan.defaultGenerator) now
  session := session

/-- The desired state with its identities resolved, and the draft that the planners make for it, if
a pass comes so far. -/
def draftOf? : Option (DesiredState × Draft) :=
  match state.resolveIdentities p {} with
  | (.error _, _) => none
  | (.ok desired, session) =>
    match (draftAll p accessors planners desired options.mode).run.run
      (firstDraft state options now session) with
    | (.error _, _) => none
    | (.ok (), d) => some (desired, d)

variable {p accessors planners state options now} in
theorem draftOf?_eq_some {desired : DesiredState} {d : Draft} :
    draftOf? p accessors planners state options now = some (desired, d)
      ↔ ∃ session, state.resolveIdentities p {} = (.ok desired, session)
        ∧ (draftAll p accessors planners desired options.mode).run.run
          (firstDraft state options now session) = (.ok (), d) := by
  unfold draftOf?
  rcases state.resolveIdentities p {} with ⟨e | desired', session⟩
  · simp
  dsimp only
  rcases hrun : (draftAll p accessors planners desired' options.mode).run.run
    (firstDraft state options now session) with ⟨e | u, d'⟩
  · constructor
    · intro h
      exact absurd h (by simp)
    · rintro ⟨session₁, heq, hdraft⟩
      obtain ⟨rfl, rfl⟩ : desired' = desired ∧ session = session₁ := by simpa using heq
      exact absurd (Prod.mk.inj (hrun.symm.trans hdraft)).1 (by simp)
  · constructor
    · intro h
      obtain ⟨rfl, rfl⟩ := Prod.mk.inj (Option.some.inj h)
      exact ⟨session, rfl, hrun⟩
    · rintro ⟨session₁, heq, hdraft⟩
      obtain ⟨rfl, rfl⟩ : desired' = desired ∧ session = session₁ := by simpa using heq
      exact congrArg (fun x => some (desired', x)) (Prod.mk.inj (hrun.symm.trans hdraft)).2

/-- **How a pass ends**: with an identity that cannot be resolved, a planner that fails, changes
that are forbidden, references that cannot be resolved, or what comes of ordering and numbering. -/
inductive PassEnds : Except Failure Plan × List Query → Prop
  | unidentified {e : Failure} {session : Session}
      (h : state.resolveIdentities p {} = (.error e, session)) : PassEnds (.error e, session.asked)
  | undrafted {desired : DesiredState} {session : Session} {e : Failure} {d : Draft}
      (h : state.resolveIdentities p {} = (.ok desired, session))
      (hdraft : (draftAll p accessors planners desired options.mode).run.run
        (firstDraft state options now session) = (.error e, d)) :
      PassEnds (.error e, d.session.asked)
  | forbidden {desired : DesiredState} {d : Draft}
      (hdraft : draftOf? p accessors planners state options now = some (desired, d))
      (hviolations : d.violations ≠ []) :
      PassEnds (.error (.forbidden d.violations), d.session.asked)
  | unresolved {desired : DesiredState} {d : Draft} {e : Failure} {session : Session}
      (hdraft : draftOf? p accessors planners state options now = some (desired, d))
      (hlawful : d.violations = [])
      (h : resolvePlan p accessors desired d.plan d.session = (.error e, session)) :
      PassEnds (.error e, session.asked)
  | resolved {desired : DesiredState} {d : Draft} {plan : Plan} {session : Session}
      (hdraft : draftOf? p accessors planners state options now = some (desired, d))
      (hlawful : d.violations = [])
      (h : resolvePlan p accessors desired d.plan d.session = (.ok plan, session)) :
      PassEnds (finishPlan plan, session.asked)

theorem passEnds_generatePlan : PassEnds p accessors planners state options now
    (generatePlan p accessors planners state options now) := by
  unfold generatePlan
  dsimp only
  rcases hidentities : state.resolveIdentities p {} with ⟨e | desired, session⟩
  · exact .unidentified hidentities
  dsimp only
  rcases hrun : (draftAll p accessors planners desired options.mode).run.run
    (firstDraft state options now session) with ⟨e | u, d⟩
  · have hundrafted := PassEnds.undrafted hidentities hrun
    rw [firstDraft] at hrun
    rw [hrun]
    exact hundrafted
  have hdraft : draftOf? p accessors planners state options now = some (desired, d) :=
    draftOf?_eq_some.mpr ⟨session, hidentities, hrun⟩
  rw [firstDraft] at hrun
  rw [hrun]
  dsimp only
  unfold checkViolations
  rcases hviolations : d.violations.isEmpty with _ | _
  · exact .forbidden hdraft (List.isEmpty_eq_false_iff.mp hviolations)
  · have hlawful := List.isEmpty_iff.mp hviolations
    rcases hresolve : resolvePlan p accessors desired d.plan d.session with ⟨e | plan, session'⟩
    · exact .unresolved hdraft hlawful hresolve
    · exact .resolved hdraft hlawful hresolve

variable {p accessors planners state options now}

/-- **A pass gives a plan** where it has a lawful draft that can be resolved and finished. -/
theorem generatePlan_eq_ok_iff {plan : Plan} :
    (generatePlan p accessors planners state options now).1 = .ok plan
      ↔ ∃ desired d resolved session,
        draftOf? p accessors planners state options now = some (desired, d) ∧ d.violations = []
        ∧ resolvePlan p accessors desired d.plan d.session = (.ok resolved, session)
        ∧ finishPlan resolved = .ok plan := by
  have hends := passEnds_generatePlan p accessors planners state options now
  generalize generatePlan p accessors planners state options now = result at hends ⊢
  cases hends with
  | unidentified h =>
    refine ⟨fun heq => absurd heq (by simp), ?_⟩
    rintro ⟨desired, d, resolved, session, hdraft, -⟩
    obtain ⟨session', hidentities, -⟩ := draftOf?_eq_some.mp hdraft
    exact absurd (Prod.mk.inj (h.symm.trans hidentities)).1 (by simp)
  | undrafted h hrun =>
    refine ⟨fun heq => absurd heq (by simp), ?_⟩
    rintro ⟨desired, d, resolved, session, hdraft, -⟩
    obtain ⟨session', hidentities, hrun'⟩ := draftOf?_eq_some.mp hdraft
    obtain ⟨hdesired, rfl⟩ := Prod.mk.inj (h.symm.trans hidentities)
    obtain rfl := Except.ok.inj hdesired
    exact absurd (Prod.mk.inj (hrun.symm.trans hrun')).1 (by simp)
  | forbidden hdraft hviolations =>
    refine ⟨fun heq => absurd heq (by simp), ?_⟩
    rintro ⟨desired, d, resolved, session, hdraft', hlawful, -⟩
    obtain ⟨rfl, rfl⟩ := Prod.mk.inj (Option.some.inj (hdraft.symm.trans hdraft'))
    exact absurd hlawful hviolations
  | unresolved hdraft hlawful h =>
    refine ⟨fun heq => absurd heq (by simp), ?_⟩
    rintro ⟨desired, d, resolved, session, hdraft', -, h', -⟩
    obtain ⟨rfl, rfl⟩ := Prod.mk.inj (Option.some.inj (hdraft.symm.trans hdraft'))
    exact absurd (Prod.mk.inj (h.symm.trans h')).1 (by simp)
  | resolved hdraft hlawful h =>
    refine ⟨fun heq => ⟨_, _, _, _, hdraft, hlawful, h, heq⟩, ?_⟩
    rintro ⟨desired, d, resolved, session, hdraft', -, h', hfinish⟩
    obtain ⟨rfl, rfl⟩ := Prod.mk.inj (Option.some.inj (hdraft.symm.trans hdraft'))
    obtain ⟨hresolved, -⟩ := Prod.mk.inj (h.symm.trans h')
    exact Except.ok.inj hresolved ▸ hfinish

/-- **The draft of a pass is made by moves**, with planners of declared resources. -/
theorem moves_of_draftOf? {ks : List KindPlanner} {desired : DesiredState} {d : Draft}
    (h : draftOf? p accessors (ks.map KindPlanner.toPlanner) state options now
      = some (desired, d)) :
    ∃ session, ReflTransGen (Session.GoesOn p) {} session
      ∧ ReflTransGen (Draft.Move p (ks.map KindPlanner.kind)) (firstDraft state options now session)
        d := by
  obtain ⟨session, hidentities, hdraft⟩ := draftOf?_eq_some.mp h
  have hmatched := matchedBy_resolveIdentities p state {}
  rw [hidentities] at hmatched
  obtain ⟨hgoes⟩ := hmatched
  exact ⟨session, hgoes, ((ends_of_run_ok hdraft).mp (walks_draftAll p accessors ks desired _ _)).2⟩

end Pass

end Reconcile
