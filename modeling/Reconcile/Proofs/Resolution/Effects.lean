import Reconcile.Proofs.Ends
import Reconcile.Proofs.Links

/-!
# Proofs/Resolution/Effects — what resolution does, written down as data

Where the listings that resolution asks for can be told beforehand (`Answers`), every step of it has
an **effect** that does not depend on what was done before: the creates to wait for, the fields that
are written down, the tally, and the kinds whose listing is asked for.  Effects add up
(`Effect.apply_append`), each step comes to its effect (`ComesTo`), and so does a whole batch.  Main
fact: `resolveReferences_eq` — resolution gives every change its own effect.
-/

namespace Reconcile

/-- The first resource of a kind with a name, as the listings of all namespaces tell it. -/
abbrev Look := String → String → Option Resource

/-! ## Listings that can be told beforehand -/

/-- An answer to the question for all namespaces of a kind says what is looked up there; of a kind
that is not known nothing is. -/
def Tells (lookUp : String → Option Resource) : Except StateFault (List Resource) → Prop
  | .ok rs => ∀ name, lookUp name = rs.find? fun r => r.name == name
  | .error e => e.isNotConfigured = true ∧ ∀ name, lookUp name = none

/-- The session behind questions for all namespaces of kinds. -/
def Session.advance (p : Provider) (kinds : List String) (session : Session) : Session :=
  kinds.foldl (fun s kind => (s.listAll p kind).2) session

theorem Session.advance_append (p : Provider) (kinds more : List String) (session : Session) :
    session.advance p (kinds ++ more) = (session.advance p kinds).advance p more :=
  List.foldl_append

/-- **Questions for all namespaces of kinds, one after the other, are answered as foretold.** -/
def Answers (p : Provider) (look : Look) : List String → Session → Prop
  | [], _ => True
  | kind :: rest, s => Tells (look kind) (s.listAll p kind).1 ∧ Answers p look rest (s.listAll p kind).2

theorem answers_append {p : Provider} {look : Look} {kinds more : List String} {s : Session} :
    Answers p look (kinds ++ more) s
      ↔ Answers p look kinds s ∧ Answers p look more (s.advance p kinds) := by
  induction kinds generalizing s with
  | nil => simp [Answers, Session.advance]
  | cons kind rest ih =>
    rw [List.cons_append, Answers, Answers, ih, and_assoc]
    rfl

/-! ## Effects -/

/-- Two tallies, one behind the other. -/
def Tally.append (t u : Tally) : Tally :=
  ⟨t.resolved + u.resolved, t.unknown + u.unknown, t.warnings ++ u.warnings, t.faults ++ u.faults⟩

instance : Append Tally := ⟨Tally.append⟩

theorem Tally.append_eq (t u : Tally) : t ++ u
    = ⟨t.resolved + u.resolved, t.unknown + u.unknown, t.warnings ++ u.warnings,
      t.faults ++ u.faults⟩ := rfl

@[simp] theorem Tally.append_nil (t : Tally) : t ++ ({} : Tally) = t := by
  simp [Tally.append_eq]

@[simp] theorem Tally.nil_append (t : Tally) : ({} : Tally) ++ t = t := by
  simp [Tally.append_eq]

theorem Tally.append_assoc (t u v : Tally) : t ++ u ++ v = t ++ (u ++ v) := by
  simp [Tally.append_eq, Nat.add_assoc]

namespace Change

/-- The change with fields written down and, if one was found, the identifier of its parent. -/
def noting (c : Change) (written : List (String × ResolvedField)) (parentId : Option String) :
    Change :=
  { c with
    references := written.foldl (fun m x => m.insert x.1 x.2) c.references
    parent := match parentId with
      | some id => c.parent.map fun q => { q with id := some id }
      | none => c.parent }

variable (c : Change) (written more : List (String × ResolvedField)) (i j : Option String)

@[simp] theorem noting_nil : c.noting [] none = c := rfl

theorem noting_noting :
    (c.noting written i).noting more j = c.noting (written ++ more) (j.or i) := by
  unfold noting
  rw [List.foldl_append]
  cases i <;> cases j <;> simp [Function.comp_def]

/-- Dependencies are apart from what is noted. -/
theorem addDependency_noting (d : String) :
    (c.noting written i).addDependency d = (c.addDependency d).noting written i := by
  unfold addDependency
  split <;> split <;> first | rfl | contradiction

theorem addDependencies_noting (ds : List String) : ds.foldl addDependency (c.noting written i)
    = (ds.foldl addDependency c).noting written i := by
  induction ds generalizing c with
  | nil => rfl
  | cons d rest ih => rw [List.foldl_cons, addDependency_noting, ih, List.foldl_cons]

end Change

namespace Resolution

/-- **What a step of resolution does**: the creates that the change has to wait for, the fields that
are written down, the identifier of the parent if one was found, what is counted and reported, and
the kinds whose listing is asked for. -/
structure Effect where
  awaited : List String := []
  written : List (String × ResolvedField) := []
  parent : Option String := none
  report : Tally := {}
  lookUps : List String := []

namespace Effect

/-- Two effects, one behind the other. -/
def append (e f : Effect) : Effect :=
  ⟨e.awaited ++ f.awaited, e.written ++ f.written, f.parent.or e.parent, e.report ++ f.report,
    e.lookUps ++ f.lookUps⟩

instance : Append Effect := ⟨append⟩

/-- Effects one behind the other. -/
def sum (effects : List Effect) : Effect := effects.foldr (· ++ ·) {}

/-- The change with what an effect does to it. -/
def onChange (e : Effect) (c : Change) : Change :=
  (e.awaited.foldl Change.addDependency c).noting e.written e.parent

/-- What an effect does to a run. -/
def apply (p : Provider) (e : Effect) (g : Progress) : Progress :=
  ⟨e.onChange g.change, g.tally ++ e.report, g.session.advance p e.lookUps⟩

variable (e f : Effect) (c : Change)

@[simp] theorem awaited_append : (e ++ f).awaited = e.awaited ++ f.awaited := rfl
@[simp] theorem written_append : (e ++ f).written = e.written ++ f.written := rfl
@[simp] theorem report_append : (e ++ f).report = e.report ++ f.report := rfl
@[simp] theorem lookUps_append : (e ++ f).lookUps = e.lookUps ++ f.lookUps := rfl
@[simp] theorem parent_append : (e ++ f).parent = f.parent.or e.parent := rfl

@[simp] theorem nil_append : ({} : Effect) ++ e = e := by
  change Effect.mk _ _ _ _ _ = e
  simp

@[simp] theorem append_nil : e ++ ({} : Effect) = e := by
  change Effect.mk _ _ _ _ _ = e
  simp

theorem append_assoc (h : Effect) : e ++ f ++ h = e ++ (f ++ h) := by
  change Effect.mk _ _ (h.parent.or (f.parent.or e.parent)) _ _
    = Effect.mk _ _ ((h.parent.or f.parent).or e.parent) _ _
  simp [Tally.append_assoc, Option.or_assoc]

@[simp] theorem sum_cons (effects : List Effect) : sum (e :: effects) = e ++ sum effects := rfl

theorem sum_append (effects more : List Effect) :
    sum (effects ++ more) = sum effects ++ sum more := by
  induction effects with
  | nil => exact (nil_append _).symm
  | cons e rest ih => rw [List.cons_append, sum_cons, ih, sum_cons, append_assoc]

@[simp] theorem onChange_nil : ({} : Effect).onChange c = c := rfl

@[simp] theorem id_onChange : (e.onChange c).id = c.id :=
  (c.extends_addDependencies e.awaited).id

/-- **Effects are done one behind the other.** -/
theorem onChange_append : (e ++ f).onChange c = f.onChange (e.onChange c) := by
  unfold onChange
  rw [Change.addDependencies_noting, Change.noting_noting, awaited_append, written_append,
    List.foldl_append]
  rfl

theorem apply_append (p : Provider) (g : Progress) :
    (e ++ f).apply p g = f.apply p (e.apply p g) := by
  simp only [apply, onChange_append, report_append, lookUps_append, Tally.append_assoc,
    Session.advance_append]

@[simp] theorem apply_nil (p : Provider) (g : Progress) : ({} : Effect).apply p g = g := by
  simp only [apply, onChange_nil, Tally.append_nil]
  rfl

end Effect

/-! ## Steps come to their effects -/

/-- **A step gives a value and does what an effect says**, in the run of a change whose identifier
is given, where the listings that it asks for are as foretold. -/
def ComesTo (p : Provider) (look : Look) (id : String) {α : Type} (x : Resolve α) (a : α)
    (e : Effect) : Prop :=
  ∀ g, g.change.id = id → Answers p look e.lookUps g.session →
    Ends x g (fun b g' => b = a ∧ g' = e.apply p g) fun _ _ => False

variable {p : Provider} {look : Look} {id : String} {α β : Type} {x : Resolve α} {a : α}
  {e e' : Effect}

theorem comesTo_pure (a : α) : ComesTo p look id (pure a : Resolve α) a {} :=
  fun g _ _ => ends_pure.mpr ⟨rfl, (Effect.apply_nil p g).symm⟩

theorem ComesTo.bind {f : α → Resolve β} {b : β} (hx : ComesTo p look id x a e)
    (hf : ComesTo p look id (f a) b e') : ComesTo p look id (x >>= f) b (e ++ e') := by
  intro g hid hanswers
  obtain ⟨hfirst, hsecond⟩ := answers_append.mp hanswers
  rw [ends_bind]
  refine (hx g hid hfirst).imp ?_ fun _ _ he => he
  rintro _ _ ⟨rfl, rfl⟩
  have hid' : (e.apply p g).change.id = id := (Effect.id_onChange e g.change).trans hid
  refine (hf _ hid' hsecond).imp ?_ fun _ _ he => he
  rintro b' g' ⟨hb, hg⟩
  exact ⟨hb, hg.trans (Effect.apply_append e e' p g).symm⟩

theorem ComesTo.andThen {x : Resolve Unit} {y : Resolve β} {b : β} (hx : ComesTo p look id x () e)
    (hy : ComesTo p look id y b e') : ComesTo p look id (do x; y) b (e ++ e') := hx.bind hy

theorem ComesTo.giving {x : Resolve Unit} (hx : ComesTo p look id x () e) (b : β) :
    ComesTo p look id (do x; pure b) b e := by
  have h := hx.andThen (comesTo_pure b)
  rwa [Effect.append_nil] at h

/-- Steps for the members of a list come to their effects, one behind the other. -/
theorem comesTo_mapM {f : α → Resolve β} {value : α → β} {effect : α → Effect} (l : List α)
    (h : ∀ a, ComesTo p look id (f a) (value a) (effect a)) :
    ComesTo p look id (l.mapM f) (l.map value) (.sum (l.map effect)) := by
  induction l with
  | nil => exact comesTo_pure []
  | cons a rest ih =>
    rw [List.mapM_cons]
    have hrest : ComesTo p look id (do let bs ← rest.mapM f; pure (value a :: bs))
        (value a :: rest.map value) (.sum (rest.map effect) ++ {}) :=
      ih.bind (comesTo_pure _)
    rw [Effect.append_nil] at hrest
    exact (h a).bind hrest

end Resolution

/-! ## References -/

/-- The kind whose listing has to be asked for, if a reference takes one. -/
def Examination.lookUps : Examination → List String
  | .settled _ => []
  | .lookUp kind _ => [kind]

/-- **What is found for a reference of a change.** -/
def Surroundings.find (s : Surroundings) (look : Look) (changeId : String) (kind : Option String)
    (r : Reference) : Finding :=
  match s.examine changeId kind r with
  | .settled finding => finding
  | .lookUp k name => conclude r k name (look k name)

/-- What is settled does not depend on what is looked up. -/
theorem Surroundings.find_of_settled {s : Surroundings} {changeId : String} {kind : Option String}
    {r : Reference} {finding : Finding} (h : s.examine changeId kind r = .settled finding)
    (look : Look) : s.find look changeId kind r = finding := by
  rw [find, h]

namespace Finding

/-- What a finding for a reference in a field counts and reports, and the create to wait for. -/
def noted (changeId field target : String) : Finding → Resolution.Effect
  | .known _ _ => { report := Tally.addResolved {} }
  | .pending dependency _ =>
    { awaited := [dependency], report := Tally.addUnknown {} changeId field target }
  | .missing kind reason =>
    { report := Tally.addFault {} ⟨changeId, field, target, kind, reason⟩ }

/-- What is written down for a scalar field. -/
def field? (target : String) : Finding → Option ResolvedField
  | .known value _ => some { target := target, id := value }
  | .pending _ name =>
    some { target := target, id := unknownId, hints := Dict.singleton nameHint name }
  | .missing _ _ => none

/-- What is written down for an item of a list. -/
def item? (target : String) : Finding → Option Resolution.ResolvedItem
  | .known value name => some ⟨target, value, name.getD target⟩
  | .pending _ name => some ⟨target, unknownId, name⟩
  | .missing _ _ => none

end Finding

namespace Resolution

variable (s : Surroundings) (p : Provider) (look : Look) (changeId : String) (field : String)

/-- The effect of a reference in a field, all but what is written down. -/
def referenceEffect (r : Reference) : Effect :=
  { lookUps := (s.examine changeId (targetKind? field) r).lookUps }
    ++ (s.find look changeId (targetKind? field) r).noted changeId field r.target

/-- The effect of a scalar field. -/
def scalarEffect (r : Reference) : Effect :=
  referenceEffect s look changeId field r
    ++ { written := (((s.find look changeId (targetKind? field) r).field? r.target).map
      fun known => (field, known)).toList }

/-- What comes of an item of a list. -/
def itemOf? (item : Value) : Option ResolvedItem :=
  match item.text?.filter looksLikeRemoteId with
  | some id => some ⟨id, id, ""⟩
  | none => (referenceIn? (targetKind? field) item).bind fun r =>
    (s.find look changeId (targetKind? field) r).item? r.target

/-- The effect of an item of a list. -/
def itemEffect (item : Value) : Effect :=
  match item.text?.filter looksLikeRemoteId with
  | some _ => {}
  | none =>
    match referenceIn? (targetKind? field) item with
    | none => { report := Tally.addFault {} ⟨changeId, field, item.plainText, targetKind? field,
        "array item is neither a reference nor a remote id"⟩ }
    | some r => referenceEffect s look changeId field r

/-- What is written down for a list: something only if every item could be resolved. -/
def listOf? (items : List Value) : Option ResolvedField :=
  match (items.map (itemOf? s look changeId field)).mapM id with
  | some resolved => if resolved.isEmpty then none else some (listField resolved)
  | none => none

/-- The effect of a list field. -/
def listEffect (items : List Value) : Effect :=
  .sum (items.map (itemEffect s look changeId field))
    ++ { written := ((listOf? s look changeId field items).map fun known => (field, known)).toList }

/-- The effect of a field. -/
def fieldEffect (v : Value) : Effect :=
  if holdsReference field v then
    match v with
    | .list items => listEffect s look changeId field items
    | _ =>
      match referenceIn? (targetKind? field) v with
      | some r => scalarEffect s look changeId field r
      | none => {}
  else {}

/-- The effect of the parent of a change: one without an identifier is looked for. -/
def parentEffect : Option Parent → Effect
  | some ⟨kind, ref, none⟩ =>
    { lookUps := (s.examine changeId (some kind) (.toId ref)).lookUps } ++
      match s.find look changeId (some kind) (.toId ref) with
      | .known value _ => { parent := some value, report := Tally.addResolved {} }
      | .pending dependency _ => { awaited := [dependency] }
      | .missing kind reason =>
        { report := Tally.addFault {} ⟨changeId, "parent", ref, kind, reason⟩ }
  | _ => {}

/-- The effect of the fields of a change. -/
def fieldsEffect (entries : List (String × Value)) : Effect :=
  .sum (entries.map fun e => fieldEffect s look changeId e.1 e.2)

/-- **The effect of resolution on a change**: that of its fields in the order of their names, then
that of its parent.  Deletes stay as they are. -/
def effectOf (c : Change) : Effect :=
  if c.action = .delete then {}
  else fieldsEffect s look c.id c.fields.entries ++ parentEffect s look c.id c.parent

/-- The effect of resolution on a batch. -/
def batchEffect (changes : List Change) : Effect := .sum (changes.map (effectOf s look))

theorem batchEffect_cons (c : Change) (rest : List Change) :
    batchEffect s look (c :: rest) = effectOf s look c ++ batchEffect s look rest := rfl

theorem written_referenceEffect (r : Reference) :
    (referenceEffect s look changeId field r).written = [] := by
  unfold referenceEffect
  rcases s.find look changeId (targetKind? field) r with _ | _ | _ <;> rfl

theorem written_scalarEffect (r : Reference) :
    (scalarEffect s look changeId field r).written
      = (((s.find look changeId (targetKind? field) r).field? r.target).map
        fun known => (field, known)).toList := by
  rw [scalarEffect, Effect.written_append, written_referenceEffect, List.nil_append]

theorem report_scalarEffect (r : Reference) :
    (scalarEffect s look changeId field r).report
      = ((s.find look changeId (targetKind? field) r).noted changeId field r.target).report := by
  simp [scalarEffect, referenceEffect]

/-- The effect of a field that is a reference. -/
theorem fieldEffect_of_referenceIn? {v : Value} {r : Reference}
    (hr : referenceIn? (targetKind? field) v = some r) :
    fieldEffect s look changeId field v = scalarEffect s look changeId field r := by
  unfold fieldEffect
  cases v with
  | list items => exact absurd hr (by simp [referenceIn?])
  | _ => simp [holdsReference, hr]

/-! ## What is asked for does not depend on the answers -/

@[simp] theorem Effect.lookUps_sum (effects : List Effect) :
    (Effect.sum effects).lookUps = effects.flatMap (·.lookUps) := by
  induction effects with
  | nil => rfl
  | cons e rest ih => rw [sum_cons, lookUps_append, ih, List.flatMap_cons]

@[simp] theorem Effect.written_sum (effects : List Effect) :
    (Effect.sum effects).written = effects.flatMap (·.written) := by
  induction effects with
  | nil => rfl
  | cons e rest ih => rw [sum_cons, written_append, ih, List.flatMap_cons]

@[simp] theorem Effect.awaited_sum (effects : List Effect) :
    (Effect.sum effects).awaited = effects.flatMap (·.awaited) := by
  induction effects with
  | nil => rfl
  | cons e rest ih => rw [sum_cons, awaited_append, ih, List.flatMap_cons]

@[simp] theorem Effect.warnings_sum (effects : List Effect) :
    (Effect.sum effects).report.warnings = effects.flatMap (·.report.warnings) := by
  induction effects with
  | nil => rfl
  | cons e rest ih =>
    rw [sum_cons, report_append, List.flatMap_cons, ← ih]
    rfl

@[simp] theorem Effect.faults_sum (effects : List Effect) :
    (Effect.sum effects).report.faults = effects.flatMap (·.report.faults) := by
  induction effects with
  | nil => rfl
  | cons e rest ih =>
    rw [sum_cons, report_append, List.flatMap_cons, ← ih]
    rfl

@[simp] theorem lookUps_noted (finding : Finding) (changeId field target : String) :
    (finding.noted changeId field target).lookUps = [] := by
  cases finding <;> rfl

@[simp] theorem lookUps_referenceEffect (r : Reference) :
    (referenceEffect s look changeId field r).lookUps
      = (s.examine changeId (targetKind? field) r).lookUps := by
  rw [referenceEffect, Effect.lookUps_append, lookUps_noted, List.append_nil]

theorem lookUps_itemEffect (look' : Look) (item : Value) :
    (itemEffect s look changeId field item).lookUps
      = (itemEffect s look' changeId field item).lookUps := by
  unfold itemEffect
  split
  · rfl
  · split <;> simp

theorem lookUps_fieldEffect (look' : Look) (v : Value) :
    (fieldEffect s look changeId field v).lookUps
      = (fieldEffect s look' changeId field v).lookUps := by
  unfold fieldEffect
  split
  · split
    · simp only [listEffect, Effect.lookUps_append, Effect.lookUps_sum, List.flatMap_map,
        lookUps_itemEffect s look changeId field look']
    · split
      · simp [scalarEffect]
      · rfl
  · rfl

theorem lookUps_parentEffect_some (kind ref : String) :
    (parentEffect s look changeId (some ⟨kind, ref, none⟩)).lookUps
      = (s.examine changeId (some kind) (.toId ref)).lookUps := by
  unfold parentEffect
  dsimp only
  split <;> exact List.append_nil _

theorem lookUps_parentEffect (look' : Look) (parent : Option Parent) :
    (parentEffect s look changeId parent).lookUps
      = (parentEffect s look' changeId parent).lookUps := by
  rcases parent with _ | ⟨kind, ref, _ | id⟩
  · rfl
  · rw [lookUps_parentEffect_some, lookUps_parentEffect_some]
  · rfl

/-- **The listings that a batch asks for do not depend on what is found in them.** -/
theorem lookUps_batchEffect (look' : Look) (changes : List Change) :
    (batchEffect s look changes).lookUps = (batchEffect s look' changes).lookUps := by
  have hchange : ∀ c : Change, (effectOf s look c).lookUps = (effectOf s look' c).lookUps := by
    intro c
    unfold effectOf
    split
    · rfl
    · simp only [Effect.lookUps_append, fieldsEffect, Effect.lookUps_sum, List.flatMap_map,
        lookUps_fieldEffect s look c.id _ look', lookUps_parentEffect s look c.id look']
  simp only [batchEffect, Effect.lookUps_sum, List.flatMap_map, hchange]

/-! ## Every step comes to its effect -/

variable {s p look changeId field}

theorem comesTo_update {f : Progress → Progress} {e : Effect}
    (h : ∀ g, g.change.id = changeId → f g = e.apply p g) :
    ComesTo p look changeId (update f) () e := by
  intro g hid _
  have hrun : (update f).run.run g = (.ok (), f g) := rfl
  exact (ends_of_run_ok hrun).mpr ⟨rfl, h g hid⟩

theorem comesTo_recordResolved :
    ComesTo p look changeId recordResolved () { report := Tally.addResolved {} } :=
  comesTo_update fun g _ => by
    simp [Effect.apply, Effect.onChange, Tally.addResolved, Tally.append_eq, Session.advance]

theorem comesTo_recordUnknown (target dependency : String) :
    ComesTo p look changeId (recordUnknown field target dependency) ()
      { awaited := [dependency], report := Tally.addUnknown {} changeId field target } :=
  comesTo_update fun g hid => by
    simp [Effect.apply, Effect.onChange, Tally.addUnknown, Tally.append_eq, Session.advance, hid]

theorem comesTo_recordFault (target : String) (kind : Option String) (reason : String) :
    ComesTo p look changeId (recordFault field target kind reason) ()
      { report := Tally.addFault {} ⟨changeId, field, target, kind, reason⟩ } :=
  comesTo_update fun g hid => by
    simp [Effect.apply, Effect.onChange, Tally.addFault, Tally.append_eq, Session.advance, hid]

theorem comesTo_recordField (known : ResolvedField) :
    ComesTo p look changeId (recordField field known) () { written := [(field, known)] } :=
  comesTo_update fun g _ => by
    simp [Effect.apply, Effect.onChange, Session.advance, Change.noting]

theorem comesTo_recordParent (value : String) :
    ComesTo p look changeId (recordParent value) () { parent := some value } :=
  comesTo_update fun g _ => by
    simp [Effect.apply, Effect.onChange, Session.advance, Change.noting]

theorem comesTo_awaiting (dependency : String) : ComesTo p look changeId
    (update fun g => { g with change := g.change.addDependency dependency }) ()
    { awaited := [dependency] } :=
  comesTo_update fun g _ => by simp [Effect.apply, Effect.onChange, Session.advance]

/-- Deciding a reference finds what is found for it. -/
theorem comesTo_decideReference (kind : Option String) (r : Reference) :
    ComesTo p look changeId (decideReference s p kind r) (s.find look changeId kind r)
      { lookUps := (s.examine changeId kind r).lookUps } := by
  intro g hid hanswers
  have hresolve : s.resolve p changeId kind r g.session = (.ok (s.find look changeId kind r),
      g.session.advance p (s.examine changeId kind r).lookUps) := by
    unfold Surroundings.resolve Surroundings.find
    rcases hexamine : s.examine changeId kind r with finding | ⟨k, name⟩
    · rfl
    · rw [hexamine] at hanswers
      obtain ⟨htells, -⟩ := hanswers
      have hlookUps : g.session.advance p [k] = (g.session.listAll p k).2 := rfl
      dsimp only [Examination.lookUps]
      rw [hlookUps, Session.findByName]
      rcases hlist : g.session.listAll p k with ⟨e | rs, session⟩ <;> rw [hlist] at htells
      · obtain ⟨hunknown, hnone⟩ := htells
        simp [Except.map, hunknown, hnone]
      · simp [Except.map, htells name]
  have hrun : (decideReference s p kind r).run.run g = (.ok (s.find look changeId kind r),
      { g with session := g.session.advance p (s.examine changeId kind r).lookUps }) := by
    simp only [decideReference, ExceptT.run, StateT.run, hid, hresolve]
  exact (ends_of_run_ok hrun).mpr ⟨rfl, by simp [Effect.apply, Effect.onChange]⟩

theorem comesTo_resolveScalar (r : Reference) :
    ComesTo p look changeId (resolveScalar s p field r) ()
      (scalarEffect s look changeId field r) := by
  unfold resolveScalar scalarEffect referenceEffect
  rw [Effect.append_assoc]
  refine (comesTo_decideReference _ r).bind ?_
  rcases s.find look changeId (targetKind? field) r with ⟨value, name⟩ | ⟨dependency, name⟩
    | ⟨kind, reason⟩
  · exact comesTo_recordResolved.andThen (comesTo_recordField _)
  · exact (comesTo_recordUnknown _ _).andThen (comesTo_recordField _)
  · exact comesTo_recordFault _ _ _

theorem comesTo_resolveItem (item : Value) :
    ComesTo p look changeId (resolveItem s p field item) (itemOf? s look changeId field item)
      (itemEffect s look changeId field item) := by
  unfold resolveItem itemOf? itemEffect
  dsimp only
  rcases item.text?.filter looksLikeRemoteId with _ | id
  · rcases referenceIn? (targetKind? field) item with _ | r
    · exact (comesTo_recordFault _ _ _).giving _
    · dsimp only [Option.bind_some]
      unfold referenceEffect
      refine (comesTo_decideReference _ r).bind ?_
      rcases s.find look changeId (targetKind? field) r with ⟨value, name⟩ | ⟨dependency, name⟩
        | ⟨kind, reason⟩
      · exact comesTo_recordResolved.giving _
      · exact (comesTo_recordUnknown _ _).giving _
      · exact (comesTo_recordFault _ _ _).giving _
  · exact comesTo_pure _

theorem comesTo_resolveList (items : List Value) :
    ComesTo p look changeId (resolveList s p field items) ()
      (listEffect s look changeId field items) := by
  unfold resolveList listEffect
  refine (comesTo_mapM items comesTo_resolveItem).bind ?_
  unfold listOf?
  rcases (items.map (itemOf? s look changeId field)).mapM id with _ | resolved
  · exact comesTo_pure ()
  · dsimp only
    split
    · exact comesTo_pure ()
    · exact comesTo_recordField _

theorem comesTo_resolveField {v : Value} (hholds : holdsReference field v = true) :
    ComesTo p look changeId (resolveField s p field v) ()
      (fieldEffect s look changeId field v) := by
  unfold fieldEffect
  rw [if_pos hholds]
  have hscalar : ComesTo p look changeId
      (match referenceIn? (targetKind? field) v with
        | some r => resolveScalar s p field r
        | none => pure ()) ()
      (match referenceIn? (targetKind? field) v with
        | some r => scalarEffect s look changeId field r
        | none => {}) := by
    rcases referenceIn? (targetKind? field) v with _ | r
    · exact comesTo_pure ()
    · exact comesTo_resolveScalar r
  cases v with
  | list items => exact comesTo_resolveList items
  | _ => exact hscalar

theorem comesTo_resolveFields (entries : List (String × Value)) :
    ComesTo p look changeId (resolveFields s p entries) ()
      (fieldsEffect s look changeId entries) := by
  induction entries with
  | nil => exact comesTo_pure ()
  | cons e rest ih =>
    unfold resolveFields
    rw [fieldsEffect, List.map_cons, Effect.sum_cons]
    dsimp only
    split
    · next hholds => exact (comesTo_resolveField hholds).andThen ih
    · next hholds =>
      have hnone : fieldEffect s look changeId e.1 e.2 = {} := by
        unfold fieldEffect
        rw [if_neg hholds]
      rw [hnone, Effect.nil_append]
      exact ih

/-- **Resolving a change comes to its effect.** -/
theorem comesTo_resolveChange {c : Change} (hdelete : c.action ≠ .delete) :
    ComesTo p look c.id (resolveChange s p c) () (effectOf s look c) := by
  unfold resolveChange
  rw [effectOf, if_neg hdelete]
  refine (comesTo_resolveFields _).andThen ?_
  rcases c.parent with _ | ⟨kind, ref, _ | id⟩
  · exact comesTo_pure ()
  · refine (comesTo_decideReference _ _).bind ?_
    rcases s.find look c.id (some kind) (.toId ref) with ⟨value, name⟩ | ⟨dependency, name⟩
      | ⟨kind, reason⟩
    · exact (comesTo_recordParent _).andThen comesTo_recordResolved
    · exact comesTo_awaiting dependency
    · exact comesTo_recordFault _ _ _
  · exact comesTo_pure ()

/-! ## What an effect does to a change -/

section OnChange

variable {c : Change} {e : Effect}

theorem references_onChange (e : Effect) (c : Change) :
    (e.onChange c).references = e.written.foldl (fun m x => m.insert x.1 x.2) c.references := by
  rw [← Change.references_addDependencies c e.awaited]
  rfl

theorem parent_onChange (e : Effect) (c : Change) : (e.onChange c).parent
    = match e.parent with
      | some id => c.parent.map fun q => { q with id := some id }
      | none => c.parent := by
  rw [← Change.parent_addDependencies c e.awaited]
  rfl

theorem mem_dependsOn_onChange {d : String} :
    d ∈ (e.onChange c).dependsOn ↔ d ∈ c.dependsOn ∨ d ∈ e.awaited ∧ d ≠ c.id :=
  Change.mem_dependsOn_addDependencies

/-- The change is extended by the creates that it waits for. -/
theorem extends_onChange (e : Effect) (c : Change) : c.Extends (e.onChange c) :=
  (c.extends_addDependencies e.awaited).trans ⟨rfl, rfl, List.Subset.refl _, fun htidy => htidy⟩

end OnChange

/-! ## The field that an effect concerns -/

section Within

variable {r : Reference} {e f : Effect}

/-- The effect concerns one field of one change. -/
structure Effect.Within (changeId field : String) (e : Effect) : Prop where
  written : ∀ x ∈ e.written, x.1 = field
  warnings : ∀ w ∈ e.report.warnings, w.changeId = changeId
  faults : ∀ f ∈ e.report.faults, f.changeId = changeId ∧ f.field = field

theorem within_nil : Effect.Within changeId field {} where
  written := by simp
  warnings := by simp
  faults := by simp

theorem Effect.Within.append (he : e.Within changeId field) (hf : f.Within changeId field) :
    (e ++ f).Within changeId field where
  written x hx := (List.mem_append.mp hx).elim (he.written x) (hf.written x)
  warnings x hx := (List.mem_append.mp hx).elim (he.warnings x) (hf.warnings x)
  faults x hx := (List.mem_append.mp hx).elim (he.faults x) (hf.faults x)

theorem within_sum {effects : List Effect} (h : ∀ e ∈ effects, e.Within changeId field) :
    (Effect.sum effects).Within changeId field := by
  induction effects with
  | nil => exact within_nil
  | cons e rest ih =>
    exact (h e List.mem_cons_self).append (ih fun e he => h e (List.mem_cons_of_mem _ he))

theorem within_noted (finding : Finding) (target : String) :
    (finding.noted changeId field target).Within changeId field := by
  rcases finding with _ | _ | _ <;> constructor <;>
    simp [Finding.noted, Tally.addResolved, Tally.addUnknown, Tally.addFault]

theorem within_referenceEffect (r : Reference) :
    (referenceEffect s look changeId field r).Within changeId field :=
  Effect.Within.append ⟨by simp, by simp, by simp⟩ (within_noted _ _)

theorem within_written (known : Option ResolvedField) :
    Effect.Within changeId field
      { written := (known.map fun value => (field, value)).toList } := by
  rcases known with _ | value <;> constructor <;> simp

theorem within_itemEffect (item : Value) :
    (itemEffect s look changeId field item).Within changeId field := by
  unfold itemEffect
  split
  · exact within_nil
  · split
    · exact ⟨by simp, by simp [Tally.addFault], by simp [Tally.addFault]⟩
    · exact within_referenceEffect _

/-- **The effect of a field concerns that field.** -/
theorem within_fieldEffect (v : Value) :
    (fieldEffect s look changeId field v).Within changeId field := by
  unfold fieldEffect
  split
  · split
    · refine (within_sum fun e he => ?_).append (within_written _)
      obtain ⟨item, -, rfl⟩ := List.mem_map.mp he
      exact within_itemEffect item
    · split
      · exact (within_referenceEffect _).append (within_written _)
      · exact within_nil
  · exact within_nil

/-- What the faults of a parent name for a field. -/
theorem within_parentEffect (parent : Option Parent) :
    (parentEffect s look changeId parent).Within changeId "parent" := by
  rcases parent with _ | ⟨kind, ref, _ | id⟩
  · exact within_nil
  · refine Effect.Within.append ⟨by simp, by simp, by simp⟩ ?_
    split <;> constructor <;> simp [Tally.addResolved, Tally.addFault]
  · exact within_nil

/-- The effect reports on one change. -/
structure Effect.ReportsOn (changeId : String) (e : Effect) : Prop where
  warnings : ∀ w ∈ e.report.warnings, w.changeId = changeId
  faults : ∀ f ∈ e.report.faults, f.changeId = changeId

theorem reportsOn_nil : Effect.ReportsOn changeId {} where
  warnings := by simp
  faults := by simp

theorem Effect.ReportsOn.append (he : e.ReportsOn changeId) (hf : f.ReportsOn changeId) :
    (e ++ f).ReportsOn changeId where
  warnings x hx := (List.mem_append.mp hx).elim (he.warnings x) (hf.warnings x)
  faults x hx := (List.mem_append.mp hx).elim (he.faults x) (hf.faults x)

/-- What concerns a field of a change reports on the change. -/
theorem Effect.Within.reportsOn (h : e.Within changeId field) : e.ReportsOn changeId :=
  ⟨h.warnings, fun f hf => (h.faults f hf).1⟩

theorem reportsOn_fieldsEffect (entries : List (String × Value)) :
    (fieldsEffect s look changeId entries).ReportsOn changeId := by
  induction entries with
  | nil => exact reportsOn_nil
  | cons e rest ih => exact (within_fieldEffect e.2).reportsOn.append ih

/-- **The effect of resolution on a change reports on that change.** -/
theorem reportsOn_effectOf (c : Change) : (effectOf s look c).ReportsOn c.id := by
  unfold effectOf
  split
  · exact reportsOn_nil
  · exact (reportsOn_fieldsEffect _).append (within_parentEffect _).reportsOn

end Within

/-! ## Batches -/

/-- A batch that is resolved has its first change resolved, unless that is a delete, and then the
others. -/
theorem resolveChanges_cons_ok {c : Change} {rest changes' : List Change} {tally tally' : Tally}
    {session session' : Session}
    (h : resolveChanges s p (c :: rest) tally session = (.ok tally', changes', session')) :
    (c.action = .delete ∧ ∃ rest', changes' = c :: rest'
      ∧ resolveChanges s p rest tally session = (.ok tally', rest', session'))
    ∨ (c.action ≠ .delete ∧ ∃ g rest',
      (resolveChange s p c).run.run ⟨c, tally, session⟩ = (.ok (), g) ∧ changes' = g.change :: rest'
      ∧ resolveChanges s p rest g.tally g.session = (.ok tally', rest', session')) := by
  unfold resolveChanges at h
  split at h
  · next hdelete =>
    rcases hrest : resolveChanges s p rest tally session with ⟨answer, rest', session₁⟩
    rw [hrest] at h
    obtain ⟨rfl, htail⟩ := Prod.mk.inj h
    obtain ⟨rfl, rfl⟩ := Prod.mk.inj htail
    exact .inl ⟨hdelete, rest', rfl, rfl⟩
  · next hdelete =>
    rcases hrun : (resolveChange s p c).run.run ⟨c, tally, session⟩ with ⟨e | u, g⟩ <;>
      rw [hrun] at h
    · exact absurd (Prod.mk.inj h).1 (by simp)
    · dsimp only at h
      rcases hrest : resolveChanges s p rest g.tally g.session with ⟨answer, rest', session₁⟩
      rw [hrest] at h
      obtain ⟨rfl, htail⟩ := Prod.mk.inj h
      obtain ⟨rfl, rfl⟩ := Prod.mk.inj htail
      exact .inr ⟨hdelete, g, rest', rfl, rfl, hrest⟩

/-- **Resolving changes does to each what its effect says**, and what is counted, reported and asked
for adds up. -/
theorem resolveChanges_eq {changes : List Change} {tally : Tally} {session : Session}
    (h : Answers p look (batchEffect s look changes).lookUps session) :
    resolveChanges s p changes tally session
      = (.ok (tally ++ (batchEffect s look changes).report),
        changes.map fun c => (effectOf s look c).onChange c,
        session.advance p (batchEffect s look changes).lookUps) := by
  induction changes generalizing tally session with
  | nil =>
    have htally : tally ++ (batchEffect s look []).report = tally := Tally.append_nil tally
    rw [htally]
    rfl
  | cons c rest ih =>
    rw [batchEffect_cons, Effect.lookUps_append] at h
    obtain ⟨hfirst, hrest⟩ := answers_append.mp h
    unfold resolveChanges
    rw [batchEffect_cons, Effect.report_append, ← Tally.append_assoc, Effect.lookUps_append,
      List.map_cons]
    split
    · next hdelete =>
      have hnone : effectOf s look c = {} := if_pos hdelete
      rw [hnone] at hrest ⊢
      have hbehind : resolveChanges s p rest tally session = _ := ih hrest
      simp only [hbehind, Tally.append_nil, Effect.onChange_nil, List.nil_append]
    · next hdelete =>
      have hrun := run_of_ends (comesTo_resolveChange hdelete ⟨c, tally, session⟩ rfl hfirst)
      rw [hrun]
      simp only [Effect.apply, ih hrest, Session.advance_append]

end Resolution

/-- **Resolution gives every change of a batch its own effect.** -/
theorem resolveReferences_eq {s : Surroundings} {p : Provider} {look : Look}
    {changes : List Change} {session : Session} (hs : s.upcoming = upcomingOf changes)
    (h : Answers p look (Resolution.batchEffect s look changes).lookUps session) :
    resolveReferences p s.index s.accessors changes session
      = (.ok (Resolution.batchEffect s look changes).report,
        changes.map fun c => (Resolution.effectOf s look c).onChange c,
        session.advance p (Resolution.batchEffect s look changes).lookUps) := by
  have hsurroundings : s = ⟨upcomingOf changes, s.index, s.accessors⟩ := by rw [← hs]
  rw [resolveReferences, ← hsurroundings, Resolution.resolveChanges_eq h, Tally.nil_append]

end Reconcile
