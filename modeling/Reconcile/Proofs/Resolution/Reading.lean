import Reconcile.Proofs.Resolution.Answered

/-!
# Proofs/Resolution/Reading — what becomes of a reference to another field than the identifier

A declared field comes first, also where the batch creates the resource.  A create of the batch
comes next, and a look-up by name among the resources of all namespaces last.  What changes wait for, what
is warned of and what is asked do not depend on what is told on the way (`Effect.Alike`), so that a
run can be compared with the one without the reference (`exists_run_without`).  Main fact:
`decides_fieldReference`.
-/

namespace Reconcile

/-! ## What is asked of resolution -/

/-- The text of a field of a resource, at a path of keys between dots. -/
def Resource.fieldText? (found : Resource) (path : String) : Option String :=
  if path = nameField then some found.name
  else (FieldMap.getPath? found.fields path).map Value.plainText

/-- Why a resource that was found by name has no value for a reference. -/
def noFieldReason (kind name path : String) : String :=
  kind ++ " " ++ quoted name ++ " has no field " ++ path

/-- **A reference is read from a declaration**: the value is written down, and that is all.  Without
the reference the batch gives the same warnings, its change waits for the same creates, and the
remote side is asked the same questions. -/
structure ReadFromDeclaration (p : Provider) (index : DeclaredIndex)
    (accessors : Accessors Declaration) (changes : List Change) (i : Nat) (c : Change)
    (field target value : String) (out : Resolved) (c' : Change) : Prop where
  recorded : c'.references.get? field = some { target := target, id := value }
  unnoticed : ∃ without c'', Resolves p index accessors (changes.set i (c.without field)) without
    ∧ without.session = out.session ∧ without.tally.warnings = out.tally.warnings
    ∧ without.changes[i]? = some c'' ∧ c''.dependsOn = c'.dependsOn

/-- A reference has one fault and nothing is written down for it. -/
structure Unread (c : Change) (kind field target reason : String) (out : Resolved) (c' : Change) :
    Prop where
  unwritten : c'.references.get? field = c.references.get? field
  reported : faultsOn c.id field out.tally = [⟨c.id, field, target, kind, reason⟩]

/-- **A reference is read from the remote side**: the first resource with the name in the listing of
all namespaces gives the text of its field.  If there is no such resource or it has no such field,
there is one fault. -/
def ReadFromListing (p : Provider) (c : Change) (kind field : String) (r : Reference)
    (name : String) (out : Resolved) (c' : Change) : Prop :=
  ∃ rs, ListedAs p out.session.asked kind rs
    ∧ (rs.find? (fun x => x.name == name) = none →
      Unread c kind field r.target (notFoundReason kind name) out c')
    ∧ ∀ found, rs.find? (fun x => x.name == name) = some found →
      (∀ value, found.fieldText? r.field = some value →
        c'.references.get? field = some { target := r.target, id := value })
      ∧ (found.fieldText? r.field = none →
        Unread c kind field r.target (noFieldReason kind name r.field) out c')

namespace Resolution

variable {s : Surroundings} {look look' : Look} {changeId field : String} {kind : Option String}
  {r : Reference} {e f e' f' : Effect} {c : Change} {v : Value} {Told : List String → Look → Prop}

/-! ## What does not depend on what is told -/

/-- The effects wait for the same creates, give the same warnings and ask the same. -/
structure Effect.Alike (e f : Effect) : Prop where
  awaited : e.awaited = f.awaited
  warnings : e.report.warnings = f.report.warnings
  lookUps : e.lookUps = f.lookUps

theorem Effect.Alike.refl (e : Effect) : e.Alike e := ⟨rfl, rfl, rfl⟩

theorem Effect.Alike.symm (h : e.Alike f) : f.Alike e :=
  ⟨h.awaited.symm, h.warnings.symm, h.lookUps.symm⟩

theorem Effect.Alike.trans (h : e.Alike f) (h' : f.Alike f') : e.Alike f' :=
  ⟨h.awaited.trans h'.awaited, h.warnings.trans h'.warnings, h.lookUps.trans h'.lookUps⟩

theorem Effect.Alike.append (h : e.Alike e') (h' : f.Alike f') : (e ++ f).Alike (e' ++ f') where
  awaited := congrArg₂ (· ++ ·) h.awaited h'.awaited
  warnings := congrArg₂ (· ++ ·) h.warnings h'.warnings
  lookUps := congrArg₂ (· ++ ·) h.lookUps h'.lookUps

theorem alike_sum {effects others : List Effect} (h : List.Forall₂ Effect.Alike effects others) :
    (Effect.sum effects).Alike (.sum others) := by
  induction h with
  | nil => exact .refl _
  | cons hfirst _ ih => exact hfirst.append ih

/-- What is written down alone changes nothing here. -/
theorem alike_written (e : Effect) (written : List (String × ResolvedField)) :
    (e ++ { written := written }).Alike e where
  awaited := List.append_nil _
  warnings := List.append_nil _
  lookUps := List.append_nil _

/-- **Only what is settled beforehand waits.** -/
theorem find_eq_or (s : Surroundings) (look look' : Look) (changeId : String)
    (kind : Option String) (r : Reference) :
    s.find look changeId kind r = s.find look' changeId kind r
    ∨ (∀ d name, s.find look changeId kind r ≠ .pending d name)
      ∧ ∀ d name, s.find look' changeId kind r ≠ .pending d name := by
  have hconclude := Surroundings.conclude_ne_pending r
  unfold Surroundings.find
  rcases s.examine changeId kind r with finding | ⟨k, name⟩
  · exact .inl rfl
  · exact .inr ⟨fun _ _ => hconclude _ _ _ _ _, fun _ _ => hconclude _ _ _ _ _⟩

theorem alike_noted {finding : Finding} (h : ∀ d name, finding ≠ .pending d name)
    (target : String) : (finding.noted changeId field target).Alike {} := by
  rcases finding with _ | ⟨d, name⟩ | _
  · exact ⟨rfl, rfl, rfl⟩
  · exact absurd rfl (h d name)
  · exact ⟨rfl, rfl, rfl⟩

theorem alike_notedAsParent {finding : Finding} (h : ∀ d name, finding ≠ .pending d name)
    (ref : String) : (finding.notedAsParent changeId ref).Alike {} := by
  rcases finding with _ | ⟨d, name⟩ | _
  · exact ⟨rfl, rfl, rfl⟩
  · exact absurd rfl (h d name)
  · exact ⟨rfl, rfl, rfl⟩

theorem alike_referenceEffect (s : Surroundings) (look look' : Look) (changeId field : String)
    (r : Reference) :
    (referenceEffect s look changeId field r).Alike (referenceEffect s look' changeId field r) := by
  refine Effect.Alike.append (.refl _) ?_
  obtain heq | ⟨h, h'⟩ := find_eq_or s look look' changeId (targetKind? field) r
  · rw [heq]
    exact .refl _
  · exact (alike_noted h r.target).trans (alike_noted h' r.target).symm

theorem alike_scalarEffect (s : Surroundings) (look look' : Look) (changeId field : String)
    (r : Reference) :
    (scalarEffect s look changeId field r).Alike (scalarEffect s look' changeId field r) :=
  (alike_written _ _).trans
    ((alike_referenceEffect s look look' changeId field r).trans (alike_written _ _).symm)

theorem alike_itemEffect (s : Surroundings) (look look' : Look) (changeId field : String)
    (item : Value) :
    (itemEffect s look changeId field item).Alike (itemEffect s look' changeId field item) := by
  unfold itemEffect
  split
  · exact .refl _
  · split
    · exact .refl _
    · exact alike_referenceEffect s look look' changeId field _

theorem alike_parentEffect (s : Surroundings) (look look' : Look) (changeId : String)
    (parent : Option Parent) :
    (parentEffect s look changeId parent).Alike (parentEffect s look' changeId parent) := by
  rcases parent with _ | ⟨kind, ref, _ | known⟩
  · exact .refl _
  · rw [parentEffect_of_id_eq_none, parentEffect_of_id_eq_none]
    refine Effect.Alike.append (.refl _) ?_
    obtain heq | ⟨h, h'⟩ := find_eq_or s look look' changeId (some kind) (.toId ref)
    · rw [heq]
      exact .refl _
    · exact (alike_notedAsParent h ref).trans (alike_notedAsParent h' ref).symm
  · exact .refl _

theorem FieldTakes.alike (h : FieldTakes s Told changeId field v e) (look : Look) :
    e.Alike (fieldEffect s look changeId field v) := by
  cases h with
  | idle hidle =>
    unfold fieldEffect
    rw [if_neg (by simp [hidle])]
    exact .refl _
  | scalar hr =>
    rw [fieldEffect_of_referenceIn? _ _ _ _ hr]
    exact alike_scalarEffect s _ look changeId field _
  | @list told hholds _ =>
    rw [fieldEffect, if_pos hholds]
    refine (alike_written _ _).trans (Effect.Alike.trans ?_ (alike_written _ _).symm)
    refine alike_sum ?_
    rw [List.map_map, List.forall₂_map_left_iff, List.forall₂_map_right_iff, List.forall₂_same]
    exact fun x _ => alike_itemEffect s x.2 look changeId field x.1

/-- **What a change takes is alike whatever is told.** -/
theorem ChangeTakes.alike (h : ChangeTakes s Told c e) (look : Look) :
    e.Alike (effectOf s look c) := by
  cases h with
  | delete haction =>
    rw [effectOf, if_pos haction]
    exact .refl _
  | live haction hfields _ =>
    rw [effectOf, if_neg haction]
    refine (alike_sum ?_).append (alike_parentEffect s _ look c.id c.parent)
    rw [List.forall₂_map_right_iff]
    exact hfields.flip.imp fun _ _ htakes => htakes.alike look

theorem alike_batchEffect {changes : List Change} {effects : List Effect}
    (h : List.Forall₂ (ChangeTakes s Told) changes effects) (look : Look) :
    (Effect.sum effects).Alike (batchEffect s look changes) := by
  refine alike_sum ?_
  rw [List.forall₂_map_right_iff]
  exact h.flip.imp fun _ _ htakes => htakes.alike look

/-! ## Deciding a reference to a field -/

/-- **A declared field comes first.** -/
theorem examine_of_declaredField {kind : String} {d : Declaration} {value : Value}
    (hfield : r.targetsId = false)
    (hd : s.index.find? (some kind) r.target = some d)
    (hread : s.accessors.read? d.kind r.field d = some value) :
    ∃ name, s.examine changeId (some kind) r = .settled (.known value.plainText name) := by
  have hdeclared : s.declaredField? (s.index.find? (some kind) r.target) r
      = some value.plainText := by
    simp [Surroundings.declaredField?, hfield, hd, hread]
  exact ⟨_, by rw [examine_of_field hfield, hdeclared]⟩

/-- Where no field is declared, a create of the batch comes next, and a look-up by name last. -/
theorem examine_of_undeclaredField {kind : String} (hfield : r.targetsId = false)
    (hnone : ∀ d, s.index.find? (some kind) r.target = some d →
      s.accessors.read? d.kind r.field d = none) :
    (∀ u, s.upcoming? changeId (some kind) r.target = some u →
      s.examine changeId (some kind) r
        = .settled (.pending u.id (s.index.nameOf s.accessors kind r.target)))
    ∧ (s.upcoming? changeId (some kind) r.target = none →
      (∀ d, s.index.find? (some kind) r.target = some d → d.kind = kind) →
      s.examine changeId (some kind) r
        = .lookUp kind (s.index.nameOf s.accessors kind r.target)) := by
  have hdeclared : s.declaredField? (s.index.find? (some kind) r.target) r = none := by
    rcases hd : s.index.find? (some kind) r.target with _ | d
    · simp [Surroundings.declaredField?]
    · simp [Surroundings.declaredField?, hnone d hd]
  refine ⟨fun u hu => by rw [examine_of_field hfield, hdeclared, hu], fun hu hlawful => ?_⟩
  have hkind : ((s.index.find? (some kind) r.target).map (·.kind)).getD kind = kind := by
    rcases hd : s.index.find? (some kind) r.target with _ | d
    · rfl
    · exact hlawful d hd
  rw [examine_of_field hfield, hdeclared, hu, hkind]

/-! ## One field of a run -/

/-- What a field that is a reference takes is decided by one look-up. -/
theorem FieldTakes.exists_look (h : FieldTakes s Told changeId field v e)
    (hr : referenceIn? (targetKind? field) v = some r) :
    ∃ look, Told (s.examine changeId (targetKind? field) r).lookUps look
      ∧ e = scalarEffect s look changeId field r := by
  cases h with
  | idle hidle =>
    exact absurd ((holdsReference_of_referenceIn? hr).1.symm.trans hidle) (by simp)
  | scalar hr' htold =>
    obtain rfl := Option.some.inj (hr.symm.trans hr')
    exact ⟨_, htold, rfl⟩
  | list => exact absurd hr (by simp [referenceIn?])

/-! ## What is reported on one change -/

/-- Other changes report nothing on a change. -/
theorem faultsOn_sum_of_forall_ne {changes : List Change} {effects : List Effect}
    (h : List.Forall₂ (ChangeTakes s Told) changes effects) (hne : ∀ d ∈ changes, d.id ≠ changeId) :
    faultsOn changeId field (Effect.sum effects).report = [] := by
  refine List.filter_eq_nil_iff.mpr fun f hf hsame => ?_
  rw [Effect.faults_sum] at hf
  obtain ⟨e, he, hf⟩ := List.mem_flatMap.mp hf
  obtain ⟨d, hd, htakes⟩ := exists_left_of_mem h he
  simp only [Bool.and_eq_true, beq_iff_eq] at hsame
  exact hne d hd ((htakes.reportsOn.faults f hf).symm.trans hsame.1)

/-- **What a batch reports on a change is what the change takes.** -/
theorem faultsOn_sum {changes : List Change} {effects : List Effect} {i : Nat}
    (hids : (changes.map (·.id)).Nodup) (h : List.Forall₂ (ChangeTakes s Told) changes effects)
    (hc : changes[i]? = some c) (he : effects[i]? = some e) :
    faultsOn c.id field (Effect.sum effects).report = faultsOn c.id field e.report := by
  obtain ⟨left, right, rfl, rfl⟩ := exists_split_of_getElem? hc
  obtain ⟨before, rest, rfl, hleft, hrest⟩ := exists_append_of_forall₂ h
  obtain ⟨e', behind, -, hright, rfl⟩ := List.forall₂_cons_left_iff.mp hrest
  obtain rfl : e' = e := by simpa [hleft.length_eq] using he
  obtain ⟨hbefore, hbehind⟩ := id_ne_of_nodup hids
  rw [Effect.sum_append, Effect.sum_cons, Effect.report_append, Effect.report_append,
    faultsOn_append, faultsOn_append, faultsOn_sum_of_forall_ne hleft hbefore,
    faultsOn_sum_of_forall_ne hright hbehind, List.nil_append, List.append_nil]

/-! ## Runs -/

/-- What a change waits for afterwards is told by what it waited for and what an effect awaits. -/
theorem dependsOn_onChange_congr {c c' : Change} (hid : c.id = c'.id)
    (hdepends : c.dependsOn = c'.dependsOn) (h : e.awaited = f.awaited) :
    (e.onChange c).dependsOn = (f.onChange c').dependsOn := by
  have hfold : ∀ (ds : List String) (c c' : Change), c.id = c'.id → c.dependsOn = c'.dependsOn →
      (ds.foldl Change.addDependency c).dependsOn
        = (ds.foldl Change.addDependency c').dependsOn := by
    intro ds
    induction ds with
    | nil => exact fun _ _ _ hdepends => hdepends
    | cons d rest ih =>
      intro c c' hid hdepends
      refine ih _ _ ?_ ?_ <;> unfold Change.addDependency <;> rw [hid, hdepends] <;> split <;>
        simp [hid, hdepends]
  change (e.awaited.foldl _ c).dependsOn = (f.awaited.foldl _ c').dependsOn
  rw [h]
  exact hfold f.awaited c c' hid hdepends

section Runs

variable {p : Provider} {index : DeclaredIndex} {accessors : Accessors Declaration}
  {changes : List Change} {i : Nat} {kind : String} {out : Resolved}

/-- **What a run asks and warns of**, whatever it is told. -/
theorem alike_of_resolves (hrun : Reconcile.Resolves p s.index s.accessors changes out)
    (hs : s.upcoming = upcomingOf changes) :
    out.tally.warnings = (batchEffect s blind changes).report.warnings
      ∧ out.session = ({} : Session).advance p (batchEffect s blind changes).lookUps := by
  obtain ⟨effects, htakes, htally, -, hsession⟩ := exists_effects_of_resolveReferences hrun
  rw [← hs] at htakes
  have halike := alike_batchEffect htakes blind
  rw [htally, hsession, halike.warnings, halike.lookUps]
  exact ⟨rfl, rfl⟩

/-- What a change waits for after a run, whatever the run is told. -/
theorem exists_dependsOn_of_resolves (hrun : Reconcile.Resolves p s.index s.accessors changes out)
    (hs : s.upcoming = upcomingOf changes) (hc : changes[i]? = some c) :
    ∃ c', out.changes[i]? = some c'
      ∧ c'.dependsOn = ((effectOf s blind c).onChange c).dependsOn := by
  obtain ⟨effects, htakes, -, hchanges, -⟩ := exists_effects_of_resolveReferences hrun
  rw [← hs] at htakes
  obtain ⟨e, he, htake⟩ := exists_right_of_forall₂ htakes hc
  refine ⟨e.onChange c, by rw [hchanges, List.getElem?_zipWith, hc, he], ?_⟩
  exact dependsOn_onChange_congr rfl rfl (htake.alike blind).awaited

/-- **A run and the one without a reference that asks for nothing**: the remote side is asked the
same questions, and all that the reference adds to the warnings is its own. -/
theorem exists_run_without (hp : p.Serves)
    (hrun : Reconcile.Resolves p s.index s.accessors changes out)
    (hs : s.upcoming = upcomingOf changes) (hc : changes[i]? = some c)
    (haction : c.action ≠ .delete) (hv : c.fields.get? field = some v)
    (hparent : "parent" ≠ field) (hasks : (fieldEffect s blind c.id field v).lookUps = []) :
    ∃ without before behind,
      Reconcile.Resolves p s.index s.accessors (changes.set i (c.without field)) without
        ∧ without.session = out.session ∧ without.tally.warnings = before ++ behind
        ∧ out.tally.warnings
          = before ++ ((fieldEffect s blind c.id field v).report.warnings ++ behind)
        ∧ ((fieldEffect s blind c.id field v).awaited = [] → ∃ c'', without.changes[i]? = some c''
          ∧ c''.dependsOn = ((effectOf s blind c).onChange c).dependsOn) := by
  obtain ⟨tally, changes', session, hrun'⟩ := exists_resolveReferences_eq_ok hp s.index s.accessors
    (changes.set i (c.without field)) {}
  let without : Resolved := ⟨tally, changes', session⟩
  have hwithout : Reconcile.Resolves p s.index s.accessors (changes.set i (c.without field))
      without := hrun'
  obtain ⟨left, right, rfl, rfl⟩ := exists_split_of_getElem? hc
  have hset : (left ++ c :: right).set left.length (c.without field)
      = left ++ c.without field :: right := by simp
  have hs' : s.upcoming = upcomingOf (left ++ c.without field :: right) := by
    rw [hs]
    refine upcomingOf_congr ?_
    rw [List.map_append, List.map_append, List.map_cons, List.map_cons]
    rfl
  rw [hset] at hwithout ⊢
  obtain ⟨before, behind, -, -, heffect, heffect'⟩ :=
    exists_split_effectOf s blind haction hv hparent
  obtain ⟨hwarnings, hsession⟩ := alike_of_resolves hrun hs
  obtain ⟨hwarnings', hsession'⟩ := alike_of_resolves hwithout hs'
  rw [batchEffect_split, heffect] at hwarnings hsession
  rw [batchEffect_split, heffect'] at hwarnings' hsession'
  refine ⟨without, (batchEffect s blind left ++ before).report.warnings,
    (behind ++ batchEffect s blind right).report.warnings, hwithout, ?_, ?_, ?_, fun hawaits => ?_⟩
  · rw [hsession, hsession']
    simp [hasks]
  · rw [hwarnings']
    simp [Tally.append_eq]
  · rw [hwarnings]
    simp [Tally.append_eq]
  · obtain ⟨c'', hc'', hdepends⟩ := exists_dependsOn_of_resolves hwithout hs'
      (by simp : (left ++ c.without field :: right)[left.length]? = some (c.without field))
    refine ⟨c'', hc'', hdepends.trans (dependsOn_onChange_congr rfl rfl ?_)⟩
    rw [heffect, heffect', Effect.awaited_append, Effect.awaited_append, Effect.awaited_append,
      hawaits, List.nil_append]

/-- What a reference that is settled without the remote side does. -/
theorem fieldEffect_of_settled {finding : Finding} (hkind : targetKind? field = some kind)
    (hr : referenceIn? (some kind) v = some r)
    (h : s.examine changeId (some kind) r = .settled finding) :
    (fieldEffect s blind changeId field v).lookUps = []
      ∧ (fieldEffect s blind changeId field v).awaited
        = (finding.noted changeId field r.target).awaited
      ∧ (fieldEffect s blind changeId field v).report
        = (finding.noted changeId field r.target).report := by
  rw [fieldEffect_of_referenceIn? _ _ _ _ (hkind ▸ hr)]
  refine ⟨?_, ?_, ?_⟩
  · simp [scalarEffect, hkind, h, Examination.lookUps]
  · simp [scalarEffect, referenceEffect, hkind, Surroundings.find_of_settled h]
  · rw [report_scalarEffect, hkind, Surroundings.find_of_settled h]

/-! ## What becomes of a reference to a field -/

section Field

variable {c' : Change} (hrun : Reconcile.Resolves p s.index s.accessors changes out)
  (hs : s.upcoming = upcomingOf changes) (hc : changes[i]? = some c)
  (haction : c.action ≠ .delete) (hv : c.fields.get? field = some v)
  (hkind : targetKind? field = some kind) (hr : referenceIn? (some kind) v = some r)
  (hc' : out.changes[i]? = some c')

include hrun hs hc haction hv hkind hr hc'

/-- **What a run makes of a field that is a reference**, decided by one look-up on the way. -/
theorem exists_look_of_resolves :
    ∃ look, ({} : Session).Told p out.session (s.examine c.id (some kind) r).lookUps look
      ∧ c'.references.get? field
        = ((s.find look c.id (some kind) r).field? r.target).or (c.references.get? field)
      ∧ ((changes.map (·.id)).Nodup → faultsOn c.id field out.tally = faultsOn c.id field
        ((s.find look c.id (some kind) r).noted c.id field r.target).report) := by
  obtain ⟨effects, htakes, htally, hchanges, -⟩ := exists_effects_of_resolveReferences hrun
  rw [← hs] at htakes
  obtain ⟨e, he, htake⟩ := exists_right_of_forall₂ htakes hc
  obtain rfl : e.onChange c = c' := by
    rw [hchanges, List.getElem?_zipWith, hc, he] at hc'
    exact Option.some.inj hc'
  obtain ⟨before, mid, behind, rfl, hmid, hbefore, hbehind, hspares⟩ :=
    htake.exists_split haction hv
  rw [← hkind] at hr ⊢
  obtain ⟨look, htold, rfl⟩ := hmid.exists_look hr
  have hparent := ne_parent_of_targetKind? hkind
  refine ⟨look, htold, ?_, fun hids => ?_⟩
  · exact get?_references_onChange hbefore.written hbehind
      (written_scalarEffect s look c.id field r)
  · rw [htally, faultsOn_sum hids htakes hc he, Effect.report_append, Effect.report_append,
      faultsOn_append, faultsOn_append, hbefore.faultsOn_eq, (hspares hparent).faultsOn_eq,
      List.nil_append, List.append_nil, report_scalarEffect]

theorem readFromDeclaration (hp : p.Serves) {value : String} {name : Option String}
    (hexamine : s.examine c.id (some kind) r = .settled (.known value name)) :
    ReadFromDeclaration p s.index s.accessors changes i c field r.target value out c' := by
  obtain ⟨look, -, hreferences, -⟩ :=
    exists_look_of_resolves hrun hs hc haction hv hkind hr hc'
  obtain ⟨hasks, hawaits, hreport⟩ := fieldEffect_of_settled hkind hr hexamine
  obtain ⟨without, before, behind, hwithout, hsession, hwarnings', hwarnings, hdepends⟩ :=
    exists_run_without hp hrun hs hc haction hv (ne_parent_of_targetKind? hkind) hasks
  obtain ⟨c'', hc'', hdepends⟩ := hdepends hawaits
  obtain ⟨d, hd, hdepends'⟩ := exists_dependsOn_of_resolves hrun hs hc
  obtain rfl := Option.some.inj (hd.symm.trans hc')
  refine ⟨?_, without, c'', hwithout, hsession, ?_, hc'', hdepends.trans hdepends'.symm⟩
  · rw [hreferences, Surroundings.find_of_settled hexamine]
    rfl
  · rw [hwarnings', hwarnings, hreport]
    rfl

theorem leftForExecution_field (hp : p.Serves) {creator name : String} (hne : creator ≠ c.id)
    (hexamine : s.examine c.id (some kind) r = .settled (.pending creator name)) :
    LeftForExecution p s.index s.accessors changes i c field r.target name creator out c' := by
  have hparent := ne_parent_of_targetKind? hkind
  obtain ⟨look, -, hreferences, -⟩ :=
    exists_look_of_resolves hrun hs hc haction hv hkind hr hc'
  obtain ⟨hasks, hawaits, hreport⟩ := fieldEffect_of_settled hkind hr hexamine
  obtain ⟨without, before, behind, hwithout, hsession, hwarnings', hwarnings, -⟩ :=
    exists_run_without hp hrun hs hc haction hv hparent hasks
  obtain ⟨d, hd, hdepends⟩ := exists_dependsOn_of_resolves hrun hs hc
  obtain rfl := Option.some.inj (hd.symm.trans hc')
  obtain ⟨front, back, -, -, heffect, -⟩ := exists_split_effectOf s blind haction hv hparent
  refine ⟨?_, ?_, without, before, behind, hwithout, hsession, hwarnings', ?_⟩
  · rw [hreferences, Surroundings.find_of_settled hexamine]
    rfl
  · rw [hdepends]
    refine mem_dependsOn_onChange.mpr (.inr ⟨?_, hne⟩)
    rw [heffect, Effect.awaited_append, Effect.awaited_append, hawaits]
    exact List.mem_append_right _ List.mem_cons_self
  · rw [hwarnings, hreport]
    rfl

theorem readFromListing (hp : p.Serves) (hids : (changes.map (·.id)).Nodup)
    (hfield : r.targetsId = false) {name : String}
    (hexamine : s.examine c.id (some kind) r = .lookUp kind name) :
    ReadFromListing p c kind field r name out c' := by
  obtain ⟨look, htold, hreferences, hfaults⟩ :=
    exists_look_of_resolves hrun hs hc haction hv hkind hr hc'
  rw [hexamine] at htold
  obtain ⟨rs, hlisted, hlook⟩ := exists_listedAs_of_told hp Session.traced_start htold
  have hfind : s.find look c.id (some kind) r
      = conclude r kind name (rs.find? fun x => x.name == name) := by
    rw [Surroundings.find, hexamine, ← hlook]
  have hanswer : ∀ found : Resource, found.answer? r = found.fieldText? r.field := fun found => by
    simp [Resource.answer?, Resource.fieldText?, hfield]
  rw [hfind] at hreferences hfaults
  have hunread : ∀ reason, conclude r kind name (rs.find? fun x => x.name == name)
      = .missing kind reason → Unread c kind field r.target reason out c' := by
    intro reason hmissing
    rw [hmissing] at hreferences hfaults
    refine ⟨hreferences, (hfaults hids).trans ?_⟩
    simp [Finding.noted, Tally.addFault, faultsOn]
  refine ⟨rs, hlisted, fun hnone => hunread _ ?_, fun found hfound => ⟨fun value hvalue => ?_,
    fun hnone => hunread _ ?_⟩⟩
  · rw [hnone]
    rfl
  · rw [hreferences, hfound, conclude, hanswer, hvalue]
    rfl
  · rw [hfound, conclude, hanswer, hnone]
    rfl

end Field

end Runs

end Resolution

open Resolution in
/-- **A declared field wins over a create of the batch, and that over what the remote side has.** -/
theorem decides_fieldReference {p : Provider} {index : DeclaredIndex}
    {accessors : Accessors Declaration} {changes : List Change} {i : Nat} {c : Change}
    {field kind : String} {v : Value} {r : Reference} (hids : (changes.map (·.id)).Nodup)
    (hp : p.Serves) (hc : changes[i]? = some c) (haction : c.action ≠ .delete)
    (hv : c.fields.get? field = some v) (hkind : targetKind? field = some kind)
    (hr : referenceIn? (some kind) v = some r) (hfield : r.targetsId = false) :
    ∃ out c', Resolves p index accessors changes out ∧ out.changes[i]? = some c'
      ∧ (∀ d value, index.find? (some kind) r.target = some d →
        accessors.read? d.kind r.field d = some value →
        ReadFromDeclaration p index accessors changes i c field r.target value.plainText out c')
      ∧ ((∀ d, index.find? (some kind) r.target = some d →
          accessors.read? d.kind r.field d = none) →
        (∀ e, creatorOf? changes c.id kind r.target = some e →
          LeftForExecution p index accessors changes i c field r.target
            (index.nameOf accessors kind r.target) e.id out c')
        ∧ (creatorOf? changes c.id kind r.target = none →
          (∀ d, index.find? (some kind) r.target = some d → d.kind = kind) →
          ReadFromListing p c kind field r (index.nameOf accessors kind r.target) out c')) := by
  let s : Surroundings := ⟨upcomingOf changes, index, accessors⟩
  obtain ⟨tally, changes', session, hrun⟩ :=
    exists_resolveReferences_eq_ok hp index accessors changes {}
  have hresolves : Resolves p s.index s.accessors changes ⟨tally, changes', session⟩ := hrun
  obtain ⟨c', hc', -⟩ := exists_dependsOn_of_resolves hresolves (s := s) rfl hc
  refine ⟨_, c', hresolves, hc', fun d value hd hread => ?_, fun hnone => ?_⟩
  · obtain ⟨name, hexamine⟩ := examine_of_declaredField (s := s) hfield hd hread
    exact readFromDeclaration hresolves rfl hc haction hv hkind hr hc' hp hexamine
  · obtain ⟨hcreated, hlookUp⟩ := examine_of_undeclaredField (s := s) hfield hnone
    have hupcoming := upcoming?_upcomingOf changes index accessors c.id kind r.target
    refine ⟨fun e he => ?_, fun hcreator hlawful => ?_⟩
    · have hne : e.id ≠ c.id := by
        have hpassed := List.find?_some he
        simp only [Bool.and_eq_true, bne_iff_ne] at hpassed
        exact hpassed.2
      rw [he] at hupcoming
      exact leftForExecution_field hresolves rfl hc haction hv hkind hr hc' hp hne
        (hcreated _ hupcoming)
    · rw [hcreator] at hupcoming
      exact readFromListing hresolves rfl hc haction hv hkind hr hc' hp hids hfield
        (hlookUp hupcoming hlawful)

/-- A publication that takes its title from a portal that is created in the same batch, and that is
declared. -/
def titledBatch : List Change := [
  { id := "1:c:api_publication:docs", kind := "api_publication", ref := "docs", action := .create
    fields := Dict.ofList [("name", .text "Docs"), ("portal_id", .reference ⟨"dev", "name"⟩)] },
  { id := "2:c:portal:dev", kind := "portal", ref := "dev", action := .create }]

theorem decides_fieldReference_titledBatch : (titledBatch.map (·.id)).Nodup
    ∧ (Provider.ofSnapshot {}).Serves ∧ ∃ out c', Resolves (.ofSnapshot {}) renewedPortal.index
        standardAccessors titledBatch out ∧ out.changes[0]? = some c'
      ∧ ∀ c, titledBatch[0]? = some c → ReadFromDeclaration (.ofSnapshot {}) renewedPortal.index
        standardAccessors titledBatch 0 c "portal_id" "dev" "Developers" out c' := by
  have hids : (titledBatch.map (·.id)).Nodup := by decide
  have hp := serves_ofSnapshot {}
  obtain ⟨out, c', hresolves, hc', hdeclared, -⟩ := @decides_fieldReference (.ofSnapshot {})
    renewedPortal.index standardAccessors titledBatch 0 _ "portal_id" "portal"
    (.reference ⟨"dev", "name"⟩) ⟨"dev", "name"⟩ hids hp List.getElem?_cons_zero (by decide)
    (by rfl) (by decide) (by rfl) (by decide)
  refine ⟨hids, hp, out, c', hresolves, hc', fun c hc => ?_⟩
  obtain rfl := Option.some.inj hc
  exact hdeclared _ _ (by rfl) (by rfl)

end Reconcile
