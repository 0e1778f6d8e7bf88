import Reconcile.Proofs.Dict
import Reconcile.Proofs.Resolution.Foretelling

/-!
# Proofs/Resolution/Scalar — what becomes of a reference to an identifier in a scalar field

A create of the batch comes first: the reference is left for execution, and the remote side is not
asked.  A declared identifier comes next, and a look-up by name among the resources of all
namespaces last (`examine_of_targetsId`; what a reference to another field comes to is
`examine_of_field`).  The effect of a field touches no other field (`Effect.Spares`), so what becomes
of the field is seen in the batch: `decides_scalarReference`.
-/

namespace Reconcile

/-! ## What is asked of resolution -/

/-- The change without one of its fields. -/
def Change.without (c : Change) (field : String) : Change :=
  { c with fields := c.fields.filter fun key _ => key != field }

/-- The first create of a batch, other than a change itself, of a resource. -/
def creatorOf? (changes : List Change) (changeId kind ref : String) : Option Change :=
  changes.find? fun e => e.creates kind ref && e.id != changeId

namespace DeclaredIndex

variable (index : DeclaredIndex) (accessors : Accessors Declaration) (kind ref : String)

/-- The name under which a resource is known: the declared one if it can be read, else what the
reference says. -/
def nameOf (index : DeclaredIndex) (accessors : Accessors Declaration) (kind ref : String) :
    String :=
  (((index.find? (some kind) ref).bind fun d => accessors.read? d.kind nameField d).map
    Value.plainText).getD ref

end DeclaredIndex

/-- The declared name, or else what the reference says. -/
theorem Surroundings.getD_declaredName? (s : Surroundings) (kind ref : String) :
    ((s.index.find? (some kind) ref).bind s.declaredName?).getD ref
      = s.index.nameOf s.accessors kind ref := by
  rcases hfound : s.index.find? (some kind) ref with _ | d <;>
    simp [DeclaredIndex.nameOf, hfound, Surroundings.declaredName?]

/-- What the warning on a reference that is left for execution says. -/
def leftMessage (field target : String) : String :=
  "Reference " ++ field ++ "=" ++ target ++ " will be resolved during execution"

/-- Why a reference that was looked up by name has no value. -/
def notFoundReason (kind name : String) : String :=
  kind ++ " " ++ quoted name ++ " not found in configuration or current state"

/-- How resolution of a batch ended: what was found, the batch afterwards, and the session. -/
structure Resolved where
  tally : Tally
  changes : List Change
  session : Session

/-- Resolution of a batch, from an empty session, ends well. -/
def Resolves (p : Provider) (index : DeclaredIndex) (accessors : Accessors Declaration)
    (changes : List Change) (out : Resolved) : Prop :=
  resolveReferences p index accessors changes {} = (.ok out.tally, out.changes, out.session)

/-- **A reference is left for execution**: it is written down as unknown under a name, its change
waits for the create, and all that the reference adds is one warning — without it the batch gives
the same other warnings and asks the remote side the same questions. -/
structure LeftForExecution (p : Provider) (index : DeclaredIndex)
    (accessors : Accessors Declaration) (changes : List Change) (i : Nat) (c : Change)
    (field target name creator : String) (out : Resolved) (c' : Change) : Prop where
  recorded : c'.references.get? field
    = some { target := target, id := unknownId, hints := Dict.singleton nameHint name }
  awaited : creator ∈ c'.dependsOn
  warned : ∃ without before behind,
    Resolves p index accessors (changes.set i (c.without field)) without
      ∧ without.session = out.session
      ∧ without.tally.warnings = before ++ behind
      ∧ out.tally.warnings = before ++ ⟨c.id, leftMessage field target⟩ :: behind

/-- A listing is what the first question for all namespaces of a kind was answered with. -/
def FirstListing (p : Provider) (session : Session) (kind : String) (rs : List Resource) : Prop :=
  ∃ before behind, session.asked = before ++ .list kind [wildcard] :: behind
    ∧ .list kind [wildcard] ∉ before ∧ p.list before kind [wildcard] = .ok rs

/-- The faults on a field of a change. -/
def faultsOn (changeId field : String) (t : Tally) : List ReferenceFault :=
  t.faults.filter fun f => f.changeId == changeId && f.field == field

/-- **A reference is looked up by name**: the first resource with the name in the listing of all
namespaces gives the identifier.  If there is none, the field has one fault, which names what was
looked for, and nothing is written down. -/
def LookedUp (p : Provider) (c : Change) (kind field target name : String) (out : Resolved)
    (c' : Change) : Prop :=
  ∃ rs, FirstListing p out.session kind rs
    ∧ (∀ found, rs.find? (fun x => x.name == name) = some found →
      c'.references.get? field = some { target := target, id := found.id })
    ∧ (rs.find? (fun x => x.name == name) = none →
      c'.references.get? field = c.references.get? field
        ∧ faultsOn c.id field out.tally
          = [⟨c.id, field, target, kind, notFoundReason kind name⟩])

theorem exists_split_of_getElem? {α : Type} {l : List α} {i : Nat} {a : α} (h : l[i]? = some a) :
    ∃ left right, l = left ++ a :: right ∧ left.length = i := by
  obtain ⟨hi, rfl⟩ := List.getElem?_eq_some_iff.mp h
  refine ⟨l.take i, l.drop (i + 1), ?_, List.length_take_of_le hi.le⟩
  rw [← List.drop_eq_getElem_cons hi, List.take_append_drop]

namespace Resolution

variable {s : Surroundings} {look : Look} {changeId field kind : String} {r : Reference}
  {e f : Effect}

/-! ## Deciding a reference to an identifier -/

theorem upcoming?_upcomingOf (changes : List Change) (index : DeclaredIndex)
    (accessors : Accessors Declaration) (changeId kind ref : String) :
    (Surroundings.mk (upcomingOf changes) index accessors).upcoming? changeId (some kind) ref
      = (creatorOf? changes changeId kind ref).map fun e => ⟨e.id, e.kind, e.ref⟩ := by
  unfold Surroundings.upcoming? upcomingOf creatorOf? Change.creates
  rw [List.find?_map, List.find?_filter]
  congr 1
  congr 1
  funext e
  rw [Bool.eq_iff_iff]
  simp only [Function.comp_apply, Option.all_some, Bool.and_eq_true, beq_iff_eq, bne_iff_ne,
    decide_eq_true_eq]
  tauto

/-- **A create of the batch comes first, then a declared identifier, then a look-up by name.** -/
theorem examine_of_targetsId (hid : r.targetsId = true) :
    s.examine changeId (some kind) r
      = match s.upcoming? changeId (some kind) r.target with
        | some u => .settled (.pending u.id (s.index.nameOf s.accessors kind r.target))
        | none =>
          match s.declaredId? (s.index.find? (some kind) r.target) r with
          | some id => .settled (.known id
              ((s.index.find? (some kind) r.target).bind s.declaredName?))
          | none => .lookUp (((s.index.find? (some kind) r.target).map (·.kind)).getD kind)
              (s.index.nameOf s.accessors kind r.target) := by
  have hfield : s.declaredField? (s.index.find? (some kind) r.target) r = none := by
    simp [Surroundings.declaredField?, hid]
  have hname := s.getD_declaredName? kind r.target
  rcases hupcoming : s.upcoming? changeId (some kind) r.target with _ | u
  · rcases hdeclared : s.declaredId? (s.index.find? (some kind) r.target) r with _ | id <;>
      simp [Surroundings.examine, hfield, hname, hupcoming, hdeclared]
  · simp [Surroundings.examine, hfield, hname, hupcoming]

/-- **A declared field comes first, then a create of the batch, then a look-up by name.** -/
theorem examine_of_field (hfield : r.targetsId = false) :
    s.examine changeId (some kind) r
      = match s.declaredField? (s.index.find? (some kind) r.target) r with
        | some value => .settled (.known value
            ((s.index.find? (some kind) r.target).bind s.declaredName?))
        | none =>
          match s.upcoming? changeId (some kind) r.target with
          | some u => .settled (.pending u.id (s.index.nameOf s.accessors kind r.target))
          | none => .lookUp (((s.index.find? (some kind) r.target).map (·.kind)).getD kind)
              (s.index.nameOf s.accessors kind r.target) := by
  have hid : s.declaredId? (s.index.find? (some kind) r.target) r = none := by
    simp [Surroundings.declaredId?, hfield]
  have hname := s.getD_declaredName? kind r.target
  rcases hread : s.declaredField? (s.index.find? (some kind) r.target) r with _ | value
  · rcases hupcoming : s.upcoming? changeId (some kind) r.target with _ | u <;>
      simp [Surroundings.examine, hid, hname, hread, hupcoming]
  · simp [Surroundings.examine, hread]

/-! ## Effects that spare a field -/

/-- The effect writes nothing down for a field of a change, and reports no fault there. -/
structure Effect.Spares (changeId field : String) (e : Effect) : Prop where
  written : ∀ x ∈ e.written, x.1 ≠ field
  faults : ∀ f ∈ e.report.faults, ¬(f.changeId = changeId ∧ f.field = field)

theorem spares_nil : Effect.Spares changeId field {} where
  written := by simp
  faults := by simp

theorem Effect.Spares.append (he : e.Spares changeId field) (hf : f.Spares changeId field) :
    (e ++ f).Spares changeId field where
  written x hx := (List.mem_append.mp hx).elim (he.written x) (hf.written x)
  faults x hx := (List.mem_append.mp hx).elim (he.faults x) (hf.faults x)

/-- What concerns another field spares this one. -/
theorem Effect.Within.spares {other : String} (he : e.Within changeId other) (hne : other ≠ field) :
    e.Spares changeId field where
  written x hx := by
    rw [he.written x hx]
    exact hne
  faults x hx h := hne ((he.faults x hx).2.symm.trans h.2)

/-- Fields with other names spare a field. -/
theorem spares_fieldsEffect {entries : List (String × Value)} (h : ∀ e ∈ entries, e.1 ≠ field) :
    (fieldsEffect s look changeId entries).Spares changeId field := by
  induction entries with
  | nil => exact spares_nil
  | cons e rest ih =>
    have hfirst : (fieldEffect s look changeId e.1 e.2).Spares changeId field :=
      (within_fieldEffect e.2).spares (h e List.mem_cons_self)
    exact hfirst.append (ih fun e he => h e (List.mem_cons_of_mem _ he))

/-! ## A field seen apart -/

variable {c : Change} {v : Value}

/-- **The effect of a change with a field is that without the field, and the effect of the field
somewhere in between.** -/
theorem exists_split_effectOf (s : Surroundings) (look : Look) (haction : c.action ≠ .delete)
    (hv : c.fields.get? field = some v) (hparent : "parent" ≠ field) :
    ∃ before behind : Effect, before.Spares c.id field ∧ behind.Spares c.id field
      ∧ effectOf s look c = before ++ (fieldEffect s look c.id field v ++ behind)
      ∧ effectOf s look (c.without field) = before ++ behind := by
  obtain ⟨before, behind, hentries, hbefore, hbehind⟩ :=
    Entries.exists_split_of_get? c.fields.ascending hv
  have hwithout : (c.without field).fields.entries = before ++ behind := by
    have hkept : ∀ l : List (String × Value), (∀ e ∈ l, e.1 ≠ field) →
        l.filter (fun e => e.1 != field) = l := fun l hl =>
      List.filter_eq_self.mpr fun e he => bne_iff_ne.mpr (hl e he)
    change c.fields.entries.filter (fun e => e.1 != field) = before ++ behind
    rw [hentries, List.filter_append, List.filter_cons_of_neg (by simp), hkept before hbefore,
      hkept behind hbehind]
  refine ⟨fieldsEffect s look c.id before,
    fieldsEffect s look c.id behind ++ parentEffect s look c.id c.parent,
    spares_fieldsEffect hbefore,
    (spares_fieldsEffect hbehind).append ((within_parentEffect _).spares hparent), ?_, ?_⟩
  · rw [effectOf, if_neg haction, hentries, fieldsEffect, List.map_append, Effect.sum_append,
      List.map_cons, Effect.sum_cons, Effect.append_assoc, Effect.append_assoc]
    rfl
  · have haction' : (c.without field).action ≠ .delete := haction
    rw [effectOf, if_neg haction', hwithout, fieldsEffect, List.map_append, Effect.sum_append,
      Effect.append_assoc]
    rfl

/-- What is written down for a field, and nowhere else, is what the field has then. -/
theorem get?_references_onChange {before mid behind : Effect}
    (hbefore : ∀ x ∈ before.written, x.1 ≠ field) (hbehind : ∀ x ∈ behind.written, x.1 ≠ field)
    {known : Option ResolvedField}
    (hmid : mid.written = (known.map fun value => (field, value)).toList) :
    ((before ++ (mid ++ behind)).onChange c).references.get? field
      = known.or (c.references.get? field) := by
  rw [references_onChange, Effect.written_append, Effect.written_append, hmid, List.foldl_append,
    List.foldl_append, Dict.get?_foldl_insert_of_forall_ne hbehind]
  rcases known with _ | value
  · exact Dict.get?_foldl_insert_of_forall_ne hbefore
  · exact Dict.get?_insert_self _ _ _

/-! ## The faults of a batch -/

theorem faultsOn_append (t u : Tally) : faultsOn changeId field (t ++ u)
    = faultsOn changeId field t ++ faultsOn changeId field u := List.filter_append _ _

theorem Effect.Spares.faultsOn_eq (h : e.Spares changeId field) :
    faultsOn changeId field e.report = [] := by
  refine List.filter_eq_nil_iff.mpr fun f hf hsame => h.faults f hf ?_
  simpa using hsame

/-- The other changes of a batch report nothing on a change. -/
theorem faultsOn_batchEffect_of_forall_ne {changes : List Change}
    (h : ∀ d ∈ changes, d.id ≠ changeId) :
    faultsOn changeId field (batchEffect s look changes).report = [] := by
  induction changes with
  | nil => rfl
  | cons d rest ih =>
    have hfirst : faultsOn changeId field (effectOf s look d).report = [] := by
      refine List.filter_eq_nil_iff.mpr fun f hf hsame => h d List.mem_cons_self ?_
      have hid := (reportsOn_effectOf d).faults f hf
      simp only [Bool.and_eq_true, beq_iff_eq] at hsame
      rw [← hid, hsame.1]
    rw [batchEffect_cons, Effect.report_append, faultsOn_append, hfirst, List.nil_append]
    exact ih fun d hd => h d (List.mem_cons_of_mem _ hd)

/-! ## What is found -/

section Found

variable {changes : List Change} {index : DeclaredIndex} {accessors : Accessors Declaration}

theorem examine_of_creator {e : Change} (hid : r.targetsId = true)
    (he : creatorOf? changes changeId kind r.target = some e) :
    (Surroundings.mk (upcomingOf changes) index accessors).examine changeId (some kind) r
      = .settled (.pending e.id (index.nameOf accessors kind r.target)) := by
  rw [examine_of_targetsId hid, upcoming?_upcomingOf, he]
  rfl

theorem examine_of_declaredId {d : Declaration} {value : Value} (hid : r.targetsId = true)
    (hnone : creatorOf? changes changeId kind r.target = none)
    (hd : index.find? (some kind) r.target = some d)
    (hread : accessors.read? d.kind idField d = some value) (hvalue : value.plainText ≠ "") :
    ∃ name, (Surroundings.mk (upcomingOf changes) index accessors).examine changeId (some kind) r
      = .settled (.known value.plainText name) := by
  have hdeclared : (Surroundings.mk (upcomingOf changes) index accessors).declaredId?
      (index.find? (some kind) r.target) r = some value.plainText := by
    simp [Surroundings.declaredId?, hid, hd, hread, hvalue]
  rw [examine_of_targetsId hid, upcoming?_upcomingOf, hnone]
  dsimp only [Option.map_none]
  rw [hdeclared]
  exact ⟨_, rfl⟩

theorem examine_of_undeclared (hid : r.targetsId = true)
    (hnone : creatorOf? changes changeId kind r.target = none)
    (hundeclared : ∀ d, index.find? (some kind) r.target = some d → d.kind = kind
      ∧ ∀ value, accessors.read? d.kind idField d = some value → value.plainText = "") :
    (Surroundings.mk (upcomingOf changes) index accessors).examine changeId (some kind) r
      = .lookUp kind (index.nameOf accessors kind r.target) := by
  have hdeclared : (Surroundings.mk (upcomingOf changes) index accessors).declaredId?
      (index.find? (some kind) r.target) r = none := by
    rcases hd : index.find? (some kind) r.target with _ | d
    · simp [Surroundings.declaredId?]
    · rcases hread : accessors.read? d.kind idField d with _ | value
      · simp [Surroundings.declaredId?, hread]
      · simp [Surroundings.declaredId?, hread, (hundeclared d hd).2 value hread]
  have hkind : ((index.find? (some kind) r.target).map (·.kind)).getD kind = kind := by
    rcases hd : index.find? (some kind) r.target with _ | d
    · rfl
    · exact (hundeclared d hd).1
  rw [examine_of_targetsId hid, upcoming?_upcomingOf, hnone]
  dsimp only [Option.map_none]
  rw [hdeclared, hkind]

end Found

/-! ## What becomes of a field -/

theorem ne_parent_of_targetKind? (hkind : targetKind? field = some kind) : "parent" ≠ field := by
  rintro rfl
  simp [targetKind?] at hkind

/-- What a scalar field has afterwards is what is found for its reference. -/
theorem get?_references_scalar (s : Surroundings) (look : Look) (haction : c.action ≠ .delete)
    (hv : c.fields.get? field = some v) (hkind : targetKind? field = some kind)
    (hr : referenceIn? (some kind) v = some r) :
    ((effectOf s look c).onChange c).references.get? field
      = ((s.find look c.id (some kind) r).field? r.target).or (c.references.get? field) := by
  obtain ⟨before, behind, hbefore, hbehind, heffect, -⟩ :=
    exists_split_effectOf s look haction hv (ne_parent_of_targetKind? hkind)
  rw [← hkind] at hr ⊢
  rw [heffect, fieldEffect_of_referenceIn? s look c.id field hr]
  exact get?_references_onChange hbefore.written hbehind.written
    (written_scalarEffect s look c.id field r)

/-- A batch with one change seen apart. -/
theorem batchEffect_split (left right : List Change) (c : Change) :
    batchEffect s look (left ++ c :: right)
      = batchEffect s look left ++ (effectOf s look c ++ batchEffect s look right) := by
  rw [batchEffect, List.map_append, Effect.sum_append]
  rfl

/-- Where identifiers are distinct the others have other ones. -/
theorem id_ne_of_nodup {left right : List Change}
    (hids : ((left ++ c :: right).map (·.id)).Nodup) :
    (∀ d ∈ left, d.id ≠ c.id) ∧ ∀ d ∈ right, d.id ≠ c.id := by
  rw [List.map_append, List.map_cons, List.nodup_append, List.nodup_cons] at hids
  obtain ⟨-, ⟨hright, -⟩, hleft⟩ := hids
  refine ⟨fun d hd => ?_, fun d hd hid => ?_⟩
  · exact hleft d.id (List.mem_map_of_mem hd) c.id List.mem_cons_self
  · exact hright (hid ▸ List.mem_map_of_mem hd)

/-- **The faults of a batch on a field of a change are those of the field.** -/
theorem faultsOn_batchEffect {left right : List Change} {before mid behind : Effect}
    (hids : ((left ++ c :: right).map (·.id)).Nodup)
    (hbefore : before.Spares c.id field) (hbehind : behind.Spares c.id field)
    (heffect : effectOf s look c = before ++ (mid ++ behind)) :
    faultsOn c.id field (batchEffect s look (left ++ c :: right)).report
      = faultsOn c.id field mid.report := by
  have hothers := id_ne_of_nodup hids
  rw [batchEffect_split, heffect]
  simp only [Effect.report_append, faultsOn_append, hbefore.faultsOn_eq, hbehind.faultsOn_eq,
    faultsOn_batchEffect_of_forall_ne hothers.1, faultsOn_batchEffect_of_forall_ne hothers.2,
    List.nil_append, List.append_nil]

variable {p : Provider} {changes : List Change} {i : Nat} {session : Session}

theorem leftForExecution (hs : s.upcoming = upcomingOf changes) (hp : p.NeverFails)
    (hc : changes[i]? = some c) (haction : c.action ≠ .delete)
    (hv : c.fields.get? field = some v) (hkind : targetKind? field = some kind)
    (hr : referenceIn? (some kind) v = some r) {creator name : String}
    (hexamine : s.examine c.id (some kind) r = .settled (.pending creator name))
    (hne : creator ≠ c.id)
    (hsession : ∀ look, session = ({} : Session).advance p (batchEffect s look changes).lookUps) :
    LeftForExecution p s.index s.accessors changes i c field r.target name creator
      ⟨(batchEffect s session.look changes).report,
        changes.map fun c => (effectOf s session.look c).onChange c, session⟩
      ((effectOf s session.look c).onChange c) := by
  obtain ⟨before, behind, -, -, heffect, hwithout⟩ :=
    exists_split_effectOf s session.look haction hv (ne_parent_of_targetKind? hkind)
  rw [fieldEffect_of_referenceIn? _ _ _ _ (hkind ▸ hr)] at heffect
  have hfind := Surroundings.find_of_settled hexamine session.look
  have hscalar : (scalarEffect s session.look c.id field r).awaited = [creator]
      ∧ (scalarEffect s session.look c.id field r).lookUps = []
      ∧ (scalarEffect s session.look c.id field r).report
        = Tally.addUnknown {} c.id field r.target := by
    simp [scalarEffect, referenceEffect, hkind, hexamine, hfind, Finding.noted,
      Examination.lookUps]
  obtain ⟨hawaited, hlookUps, hreport⟩ := hscalar
  refine ⟨?_, ?_, ?_⟩
  · rw [get?_references_scalar _ _ haction hv hkind hr, hfind]
    rfl
  · refine mem_dependsOn_onChange.mpr (.inr ⟨?_, hne⟩)
    rw [heffect, Effect.awaited_append, Effect.awaited_append, hawaited]
    simp
  · obtain ⟨left, right, hchanges, hi⟩ := exists_split_of_getElem? hc
    have hset : changes.set i (c.without field) = left ++ c.without field :: right := by
      rw [hchanges, ← hi]
      simp
    have hbatch : batchEffect s session.look changes = batchEffect s session.look left
        ++ ((before ++ (scalarEffect s session.look c.id field r ++ behind))
          ++ batchEffect s session.look right) := by
      rw [hchanges, batchEffect_split, heffect]
    have hbatch' : batchEffect s session.look (changes.set i (c.without field))
        = batchEffect s session.look left
          ++ ((before ++ behind) ++ batchEffect s session.look right) := by
      rw [hset, batchEffect_split, hwithout]
    have hupcoming : s.upcoming = upcomingOf (changes.set i (c.without field)) := by
      rw [hs, hset, hchanges]
      simp [upcomingOf, List.filter_append, List.filter_cons, Change.without, apply_ite]
    obtain ⟨session', -, -, hsession', hresolved⟩ := resolveReferences_of_neverFails hp hupcoming
    -- the reference asks nothing, so the session is the same without it
    have hlookUps' : (batchEffect s session.look (changes.set i (c.without field))).lookUps
        = (batchEffect s session.look changes).lookUps := by
      rw [hbatch, hbatch']
      simp [hlookUps]
    have hsame : session' = session := by
      calc session' = ({} : Session).advance p
            (batchEffect s session.look (changes.set i (c.without field))).lookUps :=
          hsession' session.look
        _ = ({} : Session).advance p (batchEffect s session.look changes).lookUps := by
          rw [hlookUps']
        _ = session := (hsession session.look).symm
    rw [hsame] at hresolved
    refine ⟨⟨_, _, session⟩, (batchEffect s session.look left ++ before).report.warnings,
      (behind ++ batchEffect s session.look right).report.warnings, hresolved, rfl, ?_, ?_⟩
    · rw [hbatch']
      simp [Tally.append_eq]
    · rw [hbatch]
      simp [Tally.append_eq, hreport, Tally.addUnknown, leftMessage]

theorem lookedUp (hids : (changes.map (·.id)).Nodup) (hc : changes[i]? = some c)
    (haction : c.action ≠ .delete) (hv : c.fields.get? field = some v)
    (hkind : targetKind? field = some kind) (hr : referenceIn? (some kind) v = some r)
    (hid : r.targetsId = true) {name : String}
    (hexamine : s.examine c.id (some kind) r = .lookUp kind name) (haccounted : session.Accounted p)
    (hremembered : ∀ look, ∀ kind ∈ (batchEffect s look changes).lookUps,
      ∃ rs, session.wildcardListing? kind = some rs) :
    LookedUp p c kind field r.target name
      ⟨(batchEffect s session.look changes).report,
        changes.map fun c => (effectOf s session.look c).onChange c, session⟩
      ((effectOf s session.look c).onChange c) := by
  obtain ⟨before, behind, hbefore, hbehind, heffect, -⟩ :=
    exists_split_effectOf s session.look haction hv (ne_parent_of_targetKind? hkind)
  rw [fieldEffect_of_referenceIn? _ _ _ _ (hkind ▸ hr)] at heffect
  obtain ⟨left, right, rfl, rfl⟩ := exists_split_of_getElem? hc
  have hasked : kind ∈ (batchEffect s session.look (left ++ c :: right)).lookUps := by
    have hscalar : (scalarEffect s session.look c.id field r).lookUps = [kind] := by
      simp [scalarEffect, hkind, hexamine, Examination.lookUps]
    rw [batchEffect_split, heffect]
    simp [hscalar]
  obtain ⟨rs, hrs⟩ := hremembered session.look kind hasked
  have hlook : session.look kind name = rs.find? fun x => x.name == name := by
    rw [Session.look, hrs, Option.getD_some]
  have hfind : s.find session.look c.id (some kind) r
      = conclude r kind name (rs.find? fun x => x.name == name) := by
    rw [Surroundings.find, hexamine, ← hlook]
  have hreferences := get?_references_scalar s session.look haction hv hkind hr
  rw [hfind] at hreferences
  refine ⟨rs, haccounted.listed kind rs hrs, fun found hfound => ?_, fun hnone => ?_⟩
  · rw [hreferences, hfound]
    simp [conclude, Resource.answer?, hid, Finding.field?]
  · rw [hnone] at hfind hreferences
    refine ⟨hreferences, (faultsOn_batchEffect hids hbefore hbehind heffect).trans ?_⟩
    simp [scalarEffect, referenceEffect, hkind, hfind, conclude, Finding.noted, Tally.addFault,
      faultsOn, notFoundReason]

end Resolution

open Resolution in
/-- **A create of the batch wins over a declared identifier, and that over a look-up by name.** -/
theorem decides_scalarReference {p : Provider} {index : DeclaredIndex}
    {accessors : Accessors Declaration} {changes : List Change} {i : Nat} {c : Change}
    {field kind : String} {v : Value} {r : Reference} (hids : (changes.map (·.id)).Nodup)
    (hp : p.NeverFails) (hc : changes[i]? = some c) (haction : c.action ≠ .delete)
    (hv : c.fields.get? field = some v) (hkind : targetKind? field = some kind)
    (hr : referenceIn? (some kind) v = some r) (hid : r.targetsId = true) :
    ∃ out c', Resolves p index accessors changes out ∧ out.changes[i]? = some c'
      ∧ (∀ e, creatorOf? changes c.id kind r.target = some e →
        LeftForExecution p index accessors changes i c field r.target
          (index.nameOf accessors kind r.target) e.id out c')
      ∧ (creatorOf? changes c.id kind r.target = none →
        ∀ d value, index.find? (some kind) r.target = some d →
          accessors.read? d.kind idField d = some value → value.plainText ≠ "" →
          c'.references.get? field = some { target := r.target, id := value.plainText })
      ∧ (creatorOf? changes c.id kind r.target = none →
        (∀ d, index.find? (some kind) r.target = some d → d.kind = kind
          ∧ ∀ value, accessors.read? d.kind idField d = some value → value.plainText = "") →
        LookedUp p c kind field r.target (index.nameOf accessors kind r.target) out c') := by
  let s : Surroundings := ⟨upcomingOf changes, index, accessors⟩
  obtain ⟨session, haccounted, hremembered, hsession, hresolved⟩ :=
    resolveReferences_of_neverFails hp (s := s) rfl
  refine ⟨⟨_, _, session⟩, (effectOf s session.look c).onChange c, hresolved, ?_, ?_, ?_, ?_⟩
  · rw [List.getElem?_map, hc]
    rfl
  · intro e he
    have hne : e.id ≠ c.id := by
      have hpassed := List.find?_some he
      simp only [Bool.and_eq_true, bne_iff_ne] at hpassed
      exact hpassed.2
    exact leftForExecution (s := s) rfl hp hc haction hv hkind hr (examine_of_creator hid he) hne
      hsession
  · intro hnone d value hd hread hvalue
    obtain ⟨name, hexamine⟩ := examine_of_declaredId hid hnone hd hread hvalue
    rw [get?_references_scalar _ _ haction hv hkind hr, Surroundings.find, hexamine]
    rfl
  · intro hnone hundeclared
    exact lookedUp hids hc haction hv hkind hr hid (examine_of_undeclared hid hnone hundeclared)
      haccounted hremembered

/-- A portal that is declared under another name than its reference, and with an identifier that it
had before it was deleted. -/
def renewedPortal : DesiredState where
  resources := [{ kind := "portal", ref := "dev", name := "Developers", id := some "p0" }]

/-- A publication in a portal that is created in the same batch. -/
def renewalBatch : List Change := [
  { id := "1:c:api_publication:docs", kind := "api_publication", ref := "docs", action := .create
    fields := Dict.ofList [("name", .text "Docs"), ("portal_id", .text "dev")] },
  { id := "2:c:portal:dev", kind := "portal", ref := "dev", action := .create }]

/-- A remote side where nothing is left of the portal. -/
def bareRemote : Provider where
  list _ _ _ := .ok []
  get _ _ _ := .ok none

theorem decides_scalarReference_renewedPortal : (renewalBatch.map (·.id)).Nodup
    ∧ bareRemote.NeverFails ∧ ∃ out c', Resolves bareRemote renewedPortal.index standardAccessors
        renewalBatch out ∧ out.changes[0]? = some c'
      ∧ ∀ c, renewalBatch[0]? = some c → LeftForExecution bareRemote renewedPortal.index
        standardAccessors renewalBatch 0 c "portal_id" "dev" "Developers" "2:c:portal:dev" out c' := by
  have hids : (renewalBatch.map (·.id)).Nodup := by decide
  have hp : bareRemote.NeverFails := fun _ _ _ => ⟨[], rfl⟩
  obtain ⟨out, c', hresolves, hc', hleft, -, -⟩ := @decides_scalarReference bareRemote
    renewedPortal.index standardAccessors renewalBatch 0 _ "portal_id" "portal" (.text "dev")
    (.toId "dev") hids hp List.getElem?_cons_zero (by decide) (by rfl) (by decide) (by rfl)
    (by decide)
  refine ⟨hids, hp, out, c', hresolves, hc', fun c hc => ?_⟩
  obtain rfl := Option.some.inj hc
  exact hleft _ (by rfl)

end Reconcile
