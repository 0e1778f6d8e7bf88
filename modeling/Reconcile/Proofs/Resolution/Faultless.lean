import Reconcile.Proofs.Resolution.Foretelling

/-!
# Proofs/Resolution/Faultless — a run without faults is told by what it remembers

A provider may answer a question in one way now and in another way later, and a kind that it does
not know leaves a fault behind.  So if a run of resolution reports no faults, each question in it was
answered with a listing (`Resolution.Asks`), and the session has all of them in the end.  Main facts:
`resolveReferences_eq_of_faultless` — such a run does what the effects told from its last session
say — and `Surroundings.resolve_eq_find`, by which asking once more in that session finds the same.
-/

namespace Reconcile

/-! ## Two facts about where a step ends -/

theorem Ends.and {ε σ α : Type} {x : ExceptT ε (StateM σ) α} {s : σ} {Q Q' : α → σ → Prop}
    {E : ε → σ → Prop} (h : Ends x s Q E) (h' : Ends x s Q' fun _ _ => True) :
    Ends x s (fun a s' => Q a s' ∧ Q' a s') E := by
  rcases hrun : x.run.run s with ⟨e | a, s'⟩
  · exact (ends_of_run_error hrun).mpr ((ends_of_run_error hrun).mp h)
  · exact (ends_of_run_ok hrun).mpr ⟨(ends_of_run_ok hrun).mp h, (ends_of_run_ok hrun).mp h'⟩

namespace Resolution

/-! ## What a step asks for -/

/-- A run went on, with questions for all namespaces of kinds: if it has no faults now, it had none
before, and the questions were all answered with a listing. -/
structure Went (p : Provider) (kinds : List String) (g g' : Progress) : Prop where
  id : g'.change.id = g.change.id
  session : g'.session = g.session.advance p kinds
  faultless : g'.tally.faults = [] → g.tally.faults = [] ∧ g.session.Listed p kinds

/-- **A step asks for the listings of kinds**, in the run of a change whose identifier is given. -/
def Asks (p : Provider) (id : String) {α : Type} (x : Resolve α) (kinds : List String) : Prop :=
  ∀ g, g.change.id = id → Ends x g (fun _ g' => Went p kinds g g') fun _ _ => True

variable {p : Provider} {id : String} {α β : Type} {x : Resolve α} {kinds more : List String}
  {g g' g'' : Progress}

theorem Went.trans (h : Went p kinds g g') (h' : Went p more g' g'') :
    Went p (kinds ++ more) g g'' where
  id := h'.id.trans h.id
  session := by rw [Session.advance_append, ← h.session, h'.session]
  faultless hnil := by
    obtain ⟨hbefore, hmore⟩ := h'.faultless hnil
    obtain ⟨hfirst, hkinds⟩ := h.faultless hbefore
    exact ⟨hfirst, Session.listed_append.mpr ⟨hkinds, h.session ▸ hmore⟩⟩

theorem asks_pure (a : α) : Asks p id (pure a : Resolve α) [] :=
  fun _ _ => ends_pure.mpr ⟨rfl, rfl, fun hnil => ⟨hnil, trivial⟩⟩

theorem Asks.bind {f : α → Resolve β} (hx : Asks p id x kinds) (hf : ∀ a, Asks p id (f a) more) :
    Asks p id (x >>= f) (kinds ++ more) := by
  intro g hid
  rw [ends_bind]
  refine (hx g hid).imp (fun a g' h => ?_) fun _ _ he => he
  exact (hf a g' (h.id.trans hid)).imp (fun _ _ h' => h.trans h') fun _ _ he => he

/-- A step that asks for nothing, in front of another one. -/
theorem Asks.before {f : α → Resolve β} (hx : Asks p id x [])
    (hf : ∀ a, Asks p id (f a) kinds) : Asks p id (x >>= f) kinds := hx.bind hf

theorem asks_update {f : Progress → Progress} (h : ∀ g, (f g).change.id = g.change.id
      ∧ (f g).session = g.session ∧ ((f g).tally.faults = [] → g.tally.faults = [])) :
    Asks p id (update f) [] := by
  intro g _
  have hrun : (update f).run.run g = (.ok (), f g) := rfl
  obtain ⟨hid, hsession, hnil⟩ := h g
  exact (ends_of_run_ok hrun).mpr ⟨hid, hsession, fun hfaults => ⟨hnil hfaults, trivial⟩⟩

theorem asks_addDependency (d : String) : Asks p id
    (update fun g => { g with change := g.change.addDependency d }) [] :=
  asks_update fun g => ⟨(g.change.extends_addDependency d).id, rfl, fun hnil => hnil⟩

theorem asks_recordResolved : Asks p id recordResolved [] :=
  asks_update fun _ => ⟨rfl, rfl, fun hnil => hnil⟩

theorem asks_recordUnknown (field target dependency : String) :
    Asks p id (recordUnknown field target dependency) [] :=
  asks_update fun g => ⟨(g.change.extends_addDependency dependency).id, rfl, fun hnil => hnil⟩

theorem asks_recordField (field : String) (known : ResolvedField) :
    Asks p id (recordField field known) [] :=
  asks_update fun _ => ⟨rfl, rfl, fun hnil => hnil⟩

theorem asks_recordParent (value : String) : Asks p id (recordParent value) [] :=
  asks_update fun _ => ⟨rfl, rfl, fun hnil => hnil⟩

theorem asks_recordFault (field target : String) (kind : Option String) (reason : String) :
    Asks p id (recordFault field target kind reason) [] :=
  asks_update fun _ => ⟨rfl, rfl, fun hnil => absurd hnil (by simp [Tally.addFault])⟩

/-- Where a fault is recorded there is one. -/
theorem ends_recordFault (field target : String) (kind : Option String) (reason : String)
    (g : Progress) : Ends (recordFault field target kind reason) g
      (fun _ g' => g'.tally.faults ≠ []) fun _ _ => True := by
  have hrun : (recordFault field target kind reason).run.run g = (.ok (),
      { g with tally := g.tally.addFault ⟨g.change.id, field, target, kind, reason⟩ }) := rfl
  exact (ends_of_run_ok hrun).mpr (by simp [Tally.addFault])

/-- **Deciding a reference, and then what is done with the finding**: a question that is not answered
with a listing ends the run or gives nothing, and that is recorded as a fault. -/
theorem asks_decideReference {s : Surroundings} {kind : Option String} {r : Reference}
    {f : Finding → Resolve α} (hf : ∀ finding, Asks p id (f finding) [])
    (hmissing : ∀ k reason g, Ends (f (.missing k reason)) g (fun _ g' => g'.tally.faults ≠ [])
      fun _ _ => True) :
    Asks p id (decideReference s p kind r >>= f) (s.examine id kind r).lookUps := by
  intro g hid
  rw [ends_bind]
  rcases hexamine : s.examine id kind r with finding | ⟨k, name⟩
  · have hrun : (decideReference s p kind r).run.run g = (.ok finding, g) := by
      simp [decideReference, ExceptT.run, StateT.run, Surroundings.resolve, hid, hexamine]
    exact (ends_of_run_ok hrun).mpr (hf finding g hid)
  · have hlookUps : g.session.advance p [k] = (g.session.listAll p k).2 := rfl
    dsimp only [Examination.lookUps]
    rcases hlist : g.session.listAll p k with ⟨e | rs, session⟩
    · rcases hunknown : e.isNotConfigured with _ | _
      · have hrun : (decideReference s p kind r).run.run g
            = (.error e, { g with session := session }) := by
          simp [decideReference, ExceptT.run, StateT.run, Surroundings.resolve, hid, hexamine,
            Session.findByName, hlist, Except.map, hunknown]
        exact (ends_of_run_error hrun).mpr trivial
      · have hrun : (decideReference s p kind r).run.run g
            = (.ok (conclude r k name none), { g with session := session }) := by
          simp [decideReference, ExceptT.run, StateT.run, Surroundings.resolve, hid, hexamine,
            Session.findByName, hlist, Except.map, hunknown]
        obtain ⟨reason, hreason⟩ : ∃ reason, conclude r k name none = .missing k reason := ⟨_, rfl⟩
        rw [hreason] at hrun
        have hends := (hf (.missing k reason) { g with session := session } hid).and
          (hmissing k reason _)
        refine (ends_of_run_ok hrun).mpr (hends.imp ?_ fun _ _ he => he)
        rintro _ g' ⟨hwent, hfault⟩
        refine ⟨hwent.id, ?_, fun hnil => absurd hnil hfault⟩
        rw [hlookUps, hlist, hwent.session]
        rfl
    · have hrun : (decideReference s p kind r).run.run g
          = (.ok (conclude r k name (rs.find? fun x => x.name == name)),
            { g with session := session }) := by
        simp [decideReference, ExceptT.run, StateT.run, Surroundings.resolve, hid, hexamine,
          Session.findByName, hlist, Except.map]
      have hends := hf (conclude r k name (rs.find? fun x => x.name == name))
        { g with session := session } hid
      refine (ends_of_run_ok hrun).mpr (hends.imp (fun _ g' hwent => ?_) fun _ _ he => he)
      refine ⟨hwent.id, ?_, fun hnil => ⟨(hwent.faultless hnil).1, ⟨rs, by rw [hlist]⟩, trivial⟩⟩
      rw [hlookUps, hlist, hwent.session]
      rfl

/-! ## Every step asks for what its effect says -/

variable {s : Surroundings} {look : Look} {field : String}

theorem asks_resolveScalar (r : Reference) : Asks p id (resolveScalar s p field r)
    (scalarEffect s look id field r).lookUps := by
  have hlookUps : (scalarEffect s look id field r).lookUps
      = (s.examine id (targetKind? field) r).lookUps := by simp [scalarEffect]
  rw [hlookUps]
  refine asks_decideReference (fun finding => ?_) fun _ _ g => ends_recordFault _ _ _ _ g
  rcases finding with ⟨value, name⟩ | ⟨dependency, name⟩ | ⟨kind, reason⟩
  · exact asks_recordResolved.before fun _ => asks_recordField _ _
  · exact (asks_recordUnknown _ _ _).before fun _ => asks_recordField _ _
  · exact asks_recordFault _ _ _ _

theorem asks_resolveItem (item : Value) : Asks p id (resolveItem s p field item)
    (itemEffect s look id field item).lookUps := by
  unfold resolveItem itemEffect
  dsimp only
  rcases item.text?.filter looksLikeRemoteId with _ | remote
  · rcases referenceIn? (targetKind? field) item with _ | r
    · exact (asks_recordFault _ _ _ _).before fun _ => asks_pure _
    · dsimp only
      rw [lookUps_referenceEffect]
      refine asks_decideReference (fun finding => ?_) fun _ _ g => ?_
      · rcases finding with ⟨value, name⟩ | ⟨dependency, name⟩ | ⟨kind, reason⟩
        · exact asks_recordResolved.before fun _ => asks_pure _
        · exact (asks_recordUnknown _ _ _).before fun _ => asks_pure _
        · exact (asks_recordFault _ _ _ _).before fun _ => asks_pure _
      · rw [ends_bind]
        exact (ends_recordFault _ _ _ _ g).imp (fun _ _ h => ends_pure.mpr h) fun _ _ he => he
  · exact asks_pure _

theorem asks_mapM {f : α → Resolve β} {asked : α → List String} (l : List α)
    (h : ∀ a, Asks p id (f a) (asked a)) : Asks p id (l.mapM f) (l.flatMap asked) := by
  induction l with
  | nil => exact asks_pure []
  | cons a rest ih =>
    rw [List.mapM_cons, List.flatMap_cons]
    refine (h a).bind fun b => ?_
    have hrest : Asks p id (do let bs ← rest.mapM f; pure (b :: bs)) (rest.flatMap asked ++ []) :=
      ih.bind fun _ => asks_pure _
    rwa [List.append_nil] at hrest

theorem asks_resolveField {v : Value} (hholds : holdsReference field v = true) :
    Asks p id (resolveField s p field v) (fieldEffect s look id field v).lookUps := by
  unfold fieldEffect
  rw [if_pos hholds]
  cases v with
  | list items =>
    have hitems : (listEffect s look id field items).lookUps
        = items.flatMap (fun item => (itemEffect s look id field item).lookUps) ++ [] := by
      simp [listEffect, List.flatMap_map]
    dsimp only
    rw [hitems]
    refine (asks_mapM items fun item => asks_resolveItem item).bind fun found => ?_
    split
    · split
      · exact asks_pure ()
      · exact asks_recordField _ _
    · exact asks_pure ()
  | _ =>
    unfold resolveField
    dsimp only
    generalize referenceIn? (targetKind? field) _ = found
    rcases found with _ | r
    · exact asks_pure ()
    · exact asks_resolveScalar r

theorem asks_resolveFields (entries : List (String × Value)) :
    Asks p id (resolveFields s p entries) (fieldsEffect s look id entries).lookUps := by
  induction entries with
  | nil => exact asks_pure ()
  | cons e rest ih =>
    unfold resolveFields
    rw [fieldsEffect, List.map_cons, Effect.sum_cons, Effect.lookUps_append]
    dsimp only
    split
    · next hholds => exact (asks_resolveField hholds).bind fun _ => ih
    · next hholds =>
      have hnone : fieldEffect s look id e.1 e.2 = {} := by
        unfold fieldEffect
        rw [if_neg hholds]
      rw [hnone]
      exact ih

/-- **Resolving a change asks for what its effect says.** -/
theorem asks_resolveChange {c : Change} (hdelete : c.action ≠ .delete) :
    Asks p c.id (resolveChange s p c) (effectOf s look c).lookUps := by
  unfold resolveChange
  rw [effectOf, if_neg hdelete, Effect.lookUps_append]
  refine (asks_resolveFields _).bind fun _ => ?_
  rcases c.parent with _ | ⟨kind, ref, _ | known⟩
  · exact asks_pure ()
  · rw [lookUps_parentEffect_some]
    refine asks_decideReference (fun finding => ?_) fun _ _ g => ends_recordFault _ _ _ _ g
    rcases finding with ⟨value, name⟩ | ⟨dependency, name⟩ | ⟨kind, reason⟩
    · exact (asks_recordParent _).before fun _ => asks_recordResolved
    · exact asks_addDependency dependency
    · exact asks_recordFault _ _ _ _
  · exact asks_pure ()

/-! ## Batches -/

/-- **In a run without faults every question is answered with a listing.** -/
theorem listed_of_resolveChanges {changes changes' : List Change} {tally tally' : Tally}
    {session session' : Session}
    (h : resolveChanges s p changes tally session = (.ok tally', changes', session'))
    (hnil : tally'.faults = []) : tally.faults = []
      ∧ session.Listed p (batchEffect s look changes).lookUps
      ∧ session' = session.advance p (batchEffect s look changes).lookUps := by
  induction changes generalizing tally session changes' with
  | nil =>
    obtain ⟨htally, hrest⟩ := Prod.mk.inj h
    obtain rfl := Except.ok.inj htally
    exact ⟨hnil, trivial, (Prod.mk.inj hrest).2.symm⟩
  | cons c rest ih =>
    rw [batchEffect_cons, Effect.lookUps_append, Session.listed_append, Session.advance_append]
    rcases resolveChanges_cons_ok h with ⟨hdelete, rest', -, hrest⟩
      | ⟨hdelete, g, rest', hrun, -, hrest⟩
    · have hnone : effectOf s look c = {} := if_pos hdelete
      rw [hnone]
      obtain ⟨hfirst, hlisted, hsession⟩ := ih hrest
      exact ⟨hfirst, ⟨trivial, hlisted⟩, hsession⟩
    · have hasks : Asks p c.id (resolveChange s p c) (effectOf s look c).lookUps :=
        asks_resolveChange hdelete
      have hwent := (ends_of_run_ok hrun).mp (hasks ⟨c, tally, session⟩ rfl)
      obtain ⟨hnext, hlisted, hsession⟩ := ih hrest
      obtain ⟨hfirst, hanswered⟩ := hwent.faultless hnext
      rw [hwent.session] at hlisted hsession
      exact ⟨hfirst, ⟨hanswered, hlisted⟩, hsession⟩

end Resolution

/-- **A run without faults gives every change its own effect**, told from the listings that the
session remembers in the end. -/
theorem resolveReferences_eq_of_faultless {s : Surroundings} {p : Provider}
    {changes changes' : List Change} {session session' : Session} {tally : Tally}
    (hs : s.upcoming = upcomingOf changes)
    (h : resolveReferences p s.index s.accessors changes session = (.ok tally, changes', session'))
    (hnil : tally.faults = []) :
    tally = (Resolution.batchEffect s session'.look changes).report
      ∧ changes' = changes.map (fun c => (Resolution.effectOf s session'.look c).onChange c)
      ∧ ∀ kind ∈ (Resolution.batchEffect s session'.look changes).lookUps,
        ∃ rs, session'.wildcardListing? kind = some rs := by
  have hsurroundings : s = ⟨upcomingOf changes, s.index, s.accessors⟩ := by rw [← hs]
  have hrun : Resolution.resolveChanges s p changes {} session = (.ok tally, changes', session') := by
    rw [hsurroundings]
    exact h
  obtain ⟨-, hlisted, hsession⟩ :
      _ ∧ Session.Listed p (Resolution.batchEffect s session'.look changes).lookUps session ∧ _ :=
    Resolution.listed_of_resolveChanges hrun hnil
  have hanswers := answers_of_listed hlisted
  rw [← hsession] at hanswers
  have heq := h.symm.trans (resolveReferences_eq hs hanswers)
  obtain ⟨htally, hrest⟩ := Prod.mk.inj heq
  refine ⟨Except.ok.inj htally, (Prod.mk.inj hrest).1, fun kind hkind => ?_⟩
  have hremembered := hlisted.exists_wildcardListing? hkind
  rwa [← hsession] at hremembered

/-- **Asked once more, with its listing remembered, a reference is found the same.** -/
theorem Surroundings.resolve_eq_find {s : Surroundings} {p : Provider} {session : Session}
    {changeId : String} {kind : Option String} {r : Reference}
    (h : ∀ k ∈ (s.examine changeId kind r).lookUps, ∃ rs, session.wildcardListing? k = some rs) :
    s.resolve p changeId kind r session
      = (.ok (s.find session.look changeId kind r), session) := by
  unfold resolve find
  rcases hexamine : s.examine changeId kind r with finding | ⟨k, name⟩
  · rfl
  · rw [hexamine] at h
    obtain ⟨rs, hrs⟩ := h k List.mem_cons_self
    simp [Session.findByName, Session.listAll_of_wildcardListing? p hrs, Except.map, Session.look,
      hrs]

end Reconcile
