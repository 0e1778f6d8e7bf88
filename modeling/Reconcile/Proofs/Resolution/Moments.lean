import Reconcile.Proofs.Resolution.Changes
import Reconcile.Proofs.Resolution.Scalar
import Reconcile.Proofs.Resolution.Steady

/-!
# Proofs/Resolution/Moments — resolution over a remote side that may change its mind

A provider **serves** when all that it fails with is that it does not know a kind.  It may list the
kind later, so no look-up can be told beforehand: each reference is decided by what the session
answers at its own moment (`Session.Told`).  Every step performs effects of this form (`Performs`),
and so does a whole batch.  Main facts: `exists_effects_of_resolveReferences` — a run that ends well
gives every change an effect that it takes by what is told on the way (`ChangeTakes`) — and
`exists_resolveReferences_eq_ok`, by which it ends well wherever the provider serves.
-/

namespace Reconcile

/-- **All that a provider fails with is that it does not know a kind.** -/
def Provider.Serves (p : Provider) : Prop :=
  ∀ asked kind namespaces e, p.list asked kind namespaces = .error e → e.isNotConfigured = true

theorem serves_ofSnapshot (snap : Snapshot) : (Provider.ofSnapshot snap).Serves :=
  fun asked kind namespaces e he => (steady_ofSnapshot snap).answers asked kind namespaces e he

/-! ## Moments between sessions -/

namespace Session

variable {p : Provider} {s s' s'' m m' : Session} {kinds more : List String} {look : Look}

/-- **A session leads to another one**, by questions for all namespaces of kinds. -/
def Leads (p : Provider) (s s' : Session) : Prop := ∃ kinds, s' = s.advance p kinds

theorem Leads.refl (p : Provider) (s : Session) : s.Leads p s := ⟨[], rfl⟩

theorem leads_advance (p : Provider) (kinds : List String) (s : Session) :
    s.Leads p (s.advance p kinds) := ⟨kinds, rfl⟩

theorem Leads.trans (h : s.Leads p s') (h' : s'.Leads p s'') : s.Leads p s'' := by
  obtain ⟨kinds, rfl⟩ := h
  obtain ⟨more, rfl⟩ := h'
  exact ⟨kinds ++ more, (advance_append p kinds more s).symm⟩

/-- **A look-up is told on the way from a session to another one**: it is what a session in between
answers, and that session is then asked for kinds. -/
def Told (p : Provider) (s s' : Session) (kinds : List String) (look : Look) : Prop :=
  ∃ m, s.Leads p m ∧ (m.advance p kinds).Leads p s' ∧ look = m.lookOn p

theorem Told.mono (h : m.Told p m' kinds look) (hbefore : s.Leads p m) (hbehind : m'.Leads p s') :
    s.Told p s' kinds look := by
  obtain ⟨t, hfirst, hlast, hlook⟩ := h
  exact ⟨t, hbefore.trans hfirst, hlast.trans hbehind, hlook⟩

/-- What a session answers is told where it is asked. -/
theorem told_advance (p : Provider) (kinds : List String) (s : Session) :
    s.Told p (s.advance p kinds) kinds (s.lookOn p) := ⟨s, .refl p s, .refl p _, rfl⟩

end Session

/-- **Resolving a reference finds what the session at hand tells**, unless the remote side fails. -/
theorem Surroundings.resolve_cases (s : Surroundings) (p : Provider) (changeId : String)
    (kind : Option String) (r : Reference) (session : Session) :
    s.resolve p changeId kind r session = (.ok (s.find (session.lookOn p) changeId kind r),
      session.advance p (s.examine changeId kind r).lookUps)
    ∨ ∃ e session', s.resolve p changeId kind r session = (.error e, session') ∧ ¬p.Serves := by
  unfold Surroundings.resolve Surroundings.find
  rcases s.examine changeId kind r with finding | ⟨k, name⟩
  · exact .inl rfl
  · have hsession : session.advance p [k] = (session.listAll p k).2 := rfl
    dsimp only [Examination.lookUps, Session.findByName, Session.lookOn]
    rw [hsession]
    obtain ⟨rs, -, hrun⟩ | ⟨rs, -, -, hrun⟩ | ⟨e, herror, hrun⟩ := session.listAll_cases p k <;>
      rw [hrun]
    · exact .inl rfl
    · exact .inl rfl
    · rcases hunknown : e.isNotConfigured with _ | _
      · refine .inr ⟨e, _, by simp [Except.map, hunknown]; rfl, fun hserves => ?_⟩
        exact absurd (hserves _ _ _ _ herror) (by simp [hunknown])
      · exact .inl (by simp [Except.map, hunknown])

/-- What is done with what was found for the parent of a change. -/
def Finding.notedAsParent (changeId ref : String) : Finding → Resolution.Effect
  | .known value _ => { parent := some value, report := Tally.addResolved {} }
  | .pending dependency _ => { awaited := [dependency] }
  | .missing kind reason =>
    { report := Tally.addFault {} ⟨changeId, "parent", ref, kind, reason⟩ }

namespace Resolution

/-- The effect of a parent without an identifier. -/
theorem parentEffect_of_id_eq_none (s : Surroundings) (look : Look) (changeId kind ref : String) :
    parentEffect s look changeId (some ⟨kind, ref, none⟩)
      = { lookUps := (s.examine changeId (some kind) (.toId ref)).lookUps }
        ++ (s.find look changeId (some kind) (.toId ref)).notedAsParent changeId ref := by
  unfold parentEffect
  rcases hfind : s.find look changeId (some kind) (.toId ref) with _ | _ | _ <;>
    simp only [hfind] <;> rfl

/-! ## Effects at moments -/

/-- What is written down for a list of which items this came: something only if every item could be
resolved. -/
def recorded? (found : List (Option ResolvedItem)) : Option ResolvedField :=
  match found.mapM id with
  | some resolved => if resolved.isEmpty then none else some (listField resolved)
  | none => none

variable (s : Surroundings) (Told : List String → Look → Prop) (changeId field : String)

/-- The effect of a list field of which each item is decided by a look-up of its own. -/
def toldEffect (told : List (Value × Look)) : Effect :=
  .sum (told.map fun x => itemEffect s x.2 changeId field x.1)
    ++ { written := ((recorded? (told.map fun x => itemOf? s x.2 changeId field x.1)).map
      fun known => (field, known)).toList }

/-- **A field takes an effect**: each of its references is decided by a look-up that is told where
the reference asks for it. -/
inductive FieldTakes : Value → Effect → Prop
  | idle {v : Value} (hidle : holdsReference field v = false) : FieldTakes v {}
  | scalar {v : Value} {r : Reference} {look : Look}
      (hr : referenceIn? (targetKind? field) v = some r)
      (htold : Told (s.examine changeId (targetKind? field) r).lookUps look) :
      FieldTakes v (scalarEffect s look changeId field r)
  | list {told : List (Value × Look)}
      (hholds : holdsReference field (.list (told.map Prod.fst)) = true)
      (htold : ∀ x ∈ told, Told (itemEffect s x.2 changeId field x.1).lookUps x.2) :
      FieldTakes (.list (told.map Prod.fst)) (toldEffect s changeId field told)

/-- **A change takes an effect**: those that its fields take, in the order of their names, and then
that of its parent.  Deletes stay as they are. -/
inductive ChangeTakes (c : Change) : Effect → Prop
  | delete (haction : c.action = .delete) : ChangeTakes c {}
  | live {effects : List Effect} {look : Look} (haction : c.action ≠ .delete)
      (hfields : List.Forall₂ (fun e f => FieldTakes s Told c.id e.1 e.2 f) c.fields.entries
        effects)
      (htold : Told (parentEffect s look c.id c.parent).lookUps look) :
      ChangeTakes c (.sum effects ++ parentEffect s look c.id c.parent)

variable {s Told changeId field} {Told' : List String → Look → Prop} {v : Value} {e : Effect}

/-- What is told may be told of a longer way. -/
theorem FieldTakes.mono (h : FieldTakes s Told changeId field v e)
    (himp : ∀ kinds look, Told kinds look → Told' kinds look) :
    FieldTakes s Told' changeId field v e := by
  cases h with
  | idle hidle => exact .idle hidle
  | scalar hr htold => exact .scalar hr (himp _ _ htold)
  | list hholds htold => exact .list hholds fun x hx => himp _ _ (htold x hx)

theorem ChangeTakes.mono {c : Change} (h : ChangeTakes s Told c e)
    (himp : ∀ kinds look, Told kinds look → Told' kinds look) : ChangeTakes s Told' c e := by
  cases h with
  | delete haction => exact .delete haction
  | live haction hfields htold =>
    exact .live haction (hfields.imp fun _ _ hfield => hfield.mono himp) (himp _ _ htold)

/-- What a list field takes concerns that field. -/
theorem within_toldEffect (told : List (Value × Look)) :
    (toldEffect s changeId field told).Within changeId field := by
  refine (within_sum fun e he => ?_).append (within_written _)
  obtain ⟨x, -, rfl⟩ := List.mem_map.mp he
  exact within_itemEffect x.1

/-- **What a field takes concerns that field.** -/
theorem FieldTakes.within (h : FieldTakes s Told changeId field v e) : e.Within changeId field := by
  cases h with
  | idle => exact within_nil
  | scalar => exact (within_referenceEffect _).append (within_written _)
  | list => exact within_toldEffect _

theorem reportsOn_sum {effects : List Effect} (h : ∀ e ∈ effects, e.ReportsOn changeId) :
    (Effect.sum effects).ReportsOn changeId := by
  induction effects with
  | nil => exact reportsOn_nil
  | cons e rest ih =>
    exact (h e List.mem_cons_self).append (ih fun e he => h e (List.mem_cons_of_mem _ he))

/-- **What a change takes reports on that change.** -/
theorem ChangeTakes.reportsOn {c : Change} (h : ChangeTakes s Told c e) : e.ReportsOn c.id := by
  cases h with
  | delete => exact reportsOn_nil
  | live _ hfields _ =>
    refine (reportsOn_sum fun f hf => ?_).append (within_parentEffect _).reportsOn
    obtain ⟨_, -, htakes⟩ := exists_left_of_mem hfields hf
    exact htakes.within.reportsOn

/-- What fields with other names take spares a field. -/
theorem spares_fields {entries : List (String × Value)} {effects : List Effect}
    (h : List.Forall₂ (fun x f => FieldTakes s Told changeId x.1 x.2 f) entries effects)
    (hne : ∀ x ∈ entries, x.1 ≠ field) : (Effect.sum effects).Spares changeId field := by
  induction h with
  | nil => exact spares_nil
  | cons hfirst _ ih =>
    obtain ⟨hfirst', hrest⟩ := List.forall_mem_cons.mp hne
    exact (hfirst.within.spares hfirst').append (ih hrest)

/-- **A field of a change seen apart**: what the change takes is what the field takes, with effects
around it that write nothing down for the field, and report no fault there unless it is named as the
parent is. -/
theorem ChangeTakes.exists_split {c : Change} (h : ChangeTakes s Told c e)
    (haction : c.action ≠ .delete) (hv : c.fields.get? field = some v) :
    ∃ before mid behind : Effect, e = before ++ (mid ++ behind)
      ∧ FieldTakes s Told c.id field v mid ∧ before.Spares c.id field
      ∧ (∀ x ∈ behind.written, x.1 ≠ field) ∧ ("parent" ≠ field → behind.Spares c.id field) := by
  cases h with
  | delete hdelete => exact absurd hdelete haction
  | @live _ look _ hfields _ =>
    obtain ⟨left, right, hentries, hleft, hright⟩ :=
      Entries.exists_split_of_get? c.fields.ascending hv
    rw [hentries] at hfields
    obtain ⟨before, rest, rfl, hbefore, hrest⟩ := exists_append_of_forall₂ hfields
    obtain ⟨mid, behind, hmid, hbehind, rfl⟩ := List.forall₂_cons_left_iff.mp hrest
    have hspared := spares_fields hbehind hright
    refine ⟨.sum before, mid, .sum behind ++ parentEffect s look c.id c.parent, ?_, hmid,
      spares_fields hbefore hleft, fun x hx => ?_, fun hparent => ?_⟩
    · rw [Effect.sum_append, Effect.sum_cons, Effect.append_assoc, Effect.append_assoc]
    · rw [Effect.written_append, written_parentEffect, List.append_nil] at hx
      exact hspared.written x hx
    · exact hspared.append ((within_parentEffect _).spares hparent)

/-! ## Steps that perform effects -/

/-- The look-up that finds nothing: what asks for nothing can be told by it. -/
def blind : Look := fun _ _ => none

/-- **A step performs effects**, in the run of a change whose identifier is given: it gives a value
and does what an effect says, of which a relation holds that knows the session at the beginning.  It
can fail only where the provider does not serve. -/
def Performs (p : Provider) (changeId : String) {α : Type} (x : Resolve α)
    (R : Session → α → Effect → Prop) : Prop :=
  ∀ g, g.change.id = changeId →
    Ends x g (fun a g' => ∃ e, R g.session a e ∧ g' = e.apply p g) fun _ _ => ¬p.Serves

variable {p : Provider} {α β : Type} {x : Resolve α} {a : α} {R R' : Session → α → Effect → Prop}

theorem Performs.imp (h : Performs p changeId x R) (himp : ∀ m a e, R m a e → R' m a e) :
    Performs p changeId x R' := fun g hid =>
  (h g hid).imp (fun a _ ⟨e, hR, hg⟩ => ⟨e, himp g.session a e hR, hg⟩) fun _ _ he => he

/-- A step that asks for nothing and comes to an effect performs that effect. -/
theorem ComesTo.performs {look : Look} (h : ComesTo p look changeId x a e)
    (hasks : e.lookUps = []) : Performs p changeId x fun _ b f => b = a ∧ f = e := by
  intro g hid
  have hanswers : Answers p look e.lookUps g.session := hasks ▸ trivial
  refine (h g hid hanswers).imp ?_ fun _ _ he => absurd he not_false
  rintro b g' ⟨ha, hg⟩
  exact ⟨e, ⟨ha, rfl⟩, hg⟩

theorem performs_pure (a : α) :
    Performs p changeId (pure a : Resolve α) fun _ b e => b = a ∧ e = {} :=
  have h : ComesTo p blind changeId (pure a : Resolve α) a {} := comesTo_pure a
  h.performs rfl

/-- **Of two steps the second performs its effect in the session where the first ends.** -/
theorem Performs.bind {f : α → Resolve β} {S : α → Session → β → Effect → Prop}
    (hx : Performs p changeId x R) (hf : ∀ a, Performs p changeId (f a) (S a)) :
    Performs p changeId (x >>= f) fun m b e => ∃ a e₁ e₂, R m a e₁
      ∧ S a (m.advance p e₁.lookUps) b e₂ ∧ e = e₁ ++ e₂ := by
  intro g hid
  rw [ends_bind]
  refine (hx g hid).imp ?_ fun _ _ he => he
  rintro a _ ⟨e₁, hR, rfl⟩
  refine (hf a _ ((Effect.id_onChange e₁ g.change).trans hid)).imp ?_ fun _ _ he => he
  rintro b _ ⟨e₂, hS, rfl⟩
  exact ⟨e₁ ++ e₂, ⟨a, e₁, e₂, hR, hS, rfl⟩, (Effect.apply_append e₁ e₂ p g).symm⟩

/-- **Deciding a reference finds what the session at hand tells.** -/
theorem performs_decideReference (kind : Option String) (r : Reference) :
    Performs p changeId (decideReference s p kind r) fun m finding e =>
      finding = s.find (m.lookOn p) changeId kind r
        ∧ e = { lookUps := (s.examine changeId kind r).lookUps } := by
  intro g hid
  obtain hresolve | ⟨e, session, hresolve, hfails⟩ := s.resolve_cases p changeId kind r g.session
  · have hrun : (decideReference s p kind r).run.run g
        = (.ok (s.find (g.session.lookOn p) changeId kind r),
          { g with session := g.session.advance p (s.examine changeId kind r).lookUps }) := by
      simp only [decideReference, ExceptT.run, StateT.run, hid, hresolve]
    refine (ends_of_run_ok hrun).mpr ⟨_, ⟨rfl, rfl⟩, ?_⟩
    simp [Effect.apply, Effect.onChange]
  · have hrun : (decideReference s p kind r).run.run g
        = (.error e, { g with session := session }) := by
      simp only [decideReference, ExceptT.run, StateT.run, hid, hresolve]
    exact (ends_of_run_error hrun).mpr hfails

/-- Deciding a reference, and then what is done with the finding and asks for nothing more. -/
theorem performs_decided {kind : Option String} {r : Reference} {f : Finding → Resolve α}
    (value : Finding → α) (rest : Finding → Effect)
    (hf : ∀ finding, ComesTo p blind changeId (f finding) (value finding) (rest finding))
    (hasks : ∀ finding, (rest finding).lookUps = []) :
    Performs p changeId (decideReference s p kind r >>= f) fun m a e =>
      a = value (s.find (m.lookOn p) changeId kind r)
        ∧ e = { lookUps := (s.examine changeId kind r).lookUps }
          ++ rest (s.find (m.lookOn p) changeId kind r) := by
  refine ((performs_decideReference kind r).bind fun finding =>
    (hf finding).performs (hasks finding)).imp ?_
  rintro m b e ⟨finding, e₁, e₂, ⟨rfl, rfl⟩, ⟨rfl, rfl⟩, rfl⟩
  exact ⟨rfl, rfl⟩

/-! ## The steps of resolution -/

theorem performs_resolveScalar (r : Reference) :
    Performs p changeId (resolveScalar s p field r) fun m _ e =>
      e = scalarEffect s (m.lookOn p) changeId field r := by
  refine (performs_decided (fun _ => ()) (fun finding =>
    finding.noted changeId field r.target
      ++ { written := ((finding.field? r.target).map fun known => (field, known)).toList })
    (fun finding => ?_) fun finding => ?_).imp fun m _ e he => ?_
  · rcases finding with ⟨value, name⟩ | ⟨dependency, name⟩ | ⟨kind, reason⟩
    · exact comesTo_recordResolved.andThen (comesTo_recordField _)
    · exact (comesTo_recordUnknown _ _).andThen (comesTo_recordField _)
    · exact comesTo_recordFault _ _ _
  · rw [Effect.lookUps_append, lookUps_noted]
    rfl
  · rw [he.2, scalarEffect, referenceEffect, Effect.append_assoc]

theorem performs_resolveItem (item : Value) :
    Performs p changeId (resolveItem s p field item) fun m found e =>
      found = itemOf? s (m.lookOn p) changeId field item
        ∧ e = itemEffect s (m.lookOn p) changeId field item := by
  unfold resolveItem itemOf? itemEffect
  dsimp only
  rcases item.text?.filter looksLikeRemoteId with _ | text
  · rcases referenceIn? (targetKind? field) item with _ | r
    · have hfault : ComesTo p blind changeId (do
          recordFault field item.plainText (targetKind? field)
            "array item is neither a reference nor a remote id"
          pure (none : Option ResolvedItem)) none _ :=
        (comesTo_recordFault _ _ _).giving none
      exact hfault.performs rfl
    · refine performs_decided (fun finding => finding.item? r.target)
        (fun finding => finding.noted changeId field r.target) (fun finding => ?_)
        fun finding => lookUps_noted ..
      rcases finding with ⟨value, name⟩ | ⟨dependency, name⟩ | ⟨kind, reason⟩
      · exact comesTo_recordResolved.giving _
      · exact (comesTo_recordUnknown _ _).giving _
      · exact (comesTo_recordFault _ _ _).giving _
  · exact performs_pure _

/-- Items one after the other are each decided by a look-up that is told on the way. -/
theorem performs_resolveItems (items : List Value) :
    Performs p changeId (items.mapM (resolveItem s p field)) fun m found e =>
      ∃ told : List (Value × Look), told.map Prod.fst = items
        ∧ (∀ x ∈ told,
          m.Told p (m.advance p e.lookUps) (itemEffect s x.2 changeId field x.1).lookUps x.2)
        ∧ found = told.map (fun x => itemOf? s x.2 changeId field x.1)
        ∧ e = .sum (told.map fun x => itemEffect s x.2 changeId field x.1) := by
  induction items with
  | nil =>
    refine (performs_pure []).imp ?_
    rintro m _ _ ⟨rfl, rfl⟩
    exact ⟨[], rfl, by simp, rfl, rfl⟩
  | cons item rest ih =>
    rw [List.mapM_cons]
    refine ((performs_resolveItem item).bind fun first =>
      ih.bind fun others => performs_pure (first :: others)).imp ?_
    rintro m _ _ ⟨first, _, _, ⟨rfl, rfl⟩, ⟨others, e, _, ⟨told, rfl, htold, rfl, he⟩,
      ⟨rfl, rfl⟩, rfl⟩, rfl⟩
    refine ⟨(item, m.lookOn p) :: told, rfl, fun x hx => ?_, rfl, ?_⟩
    · rw [Effect.append_nil, Effect.lookUps_append, Session.advance_append]
      rcases List.mem_cons.mp hx with rfl | hx
      · exact (Session.told_advance p _ m).mono (.refl p m) (Session.leads_advance p _ _)
      · exact (htold x hx).mono (Session.leads_advance p _ _) (.refl p _)
    · rw [Effect.append_nil, he, List.map_cons, Effect.sum_cons]

theorem performs_resolveList (items : List Value) :
    Performs p changeId (resolveList s p field items) fun m _ e =>
      ∃ told : List (Value × Look), told.map Prod.fst = items
        ∧ (∀ x ∈ told,
          m.Told p (m.advance p e.lookUps) (itemEffect s x.2 changeId field x.1).lookUps x.2)
        ∧ e = toldEffect s changeId field told := by
  have hrecord : ∀ found : List (Option ResolvedItem), ComesTo p blind changeId
      (match found.mapM id with
        | some resolved =>
          if resolved.isEmpty then pure () else recordField field (listField resolved)
        | none => pure ()) ()
      { written := ((recorded? found).map fun known => (field, known)).toList } := by
    intro found
    unfold recorded?
    rcases found.mapM id with _ | resolved
    · exact comesTo_pure ()
    · dsimp only
      split
      · exact comesTo_pure ()
      · exact comesTo_recordField _
  refine ((performs_resolveItems items).bind fun found => (hrecord found).performs rfl).imp ?_
  rintro m _ _ ⟨found, e, _, ⟨told, hitems, htold, rfl, he⟩, ⟨-, rfl⟩, rfl⟩
  refine ⟨told, hitems, fun x hx => ?_, by rw [he, toldEffect]⟩
  rw [Effect.lookUps_append, List.append_nil]
  exact htold x hx

/-- A field that is a reference holds one, and is no list. -/
theorem holdsReference_of_referenceIn? {v : Value} {r : Reference}
    (hr : referenceIn? (targetKind? field) v = some r) :
    holdsReference field v = true ∧ v.items? = none := by
  cases v with
  | list items => exact absurd hr (by simp [referenceIn?])
  | _ => exact ⟨by simp [holdsReference, hr], rfl⟩

/-- A field that holds a reference holds a list, or is that reference. -/
theorem resolveField_cases {v : Value} (hholds : holdsReference field v = true) :
    (∃ items, v = .list items) ∨ ∃ r, referenceIn? (targetKind? field) v = some r
      ∧ resolveField s p field v = resolveScalar s p field r := by
  cases v with
  | list items => exact .inl ⟨items, rfl⟩
  | reference r => exact .inr ⟨r, rfl, rfl⟩
  | text text =>
    have hsome : (referenceIn? (targetKind? field) (.text text)).isSome = true := hholds
    obtain ⟨r, hr⟩ := Option.isSome_iff_exists.mp hsome
    exact .inr ⟨r, hr, by simp only [resolveField, hr]⟩
  | _ => exact absurd hholds (by simp [holdsReference, referenceIn?])

/-- **A field takes an effect by what is told while it is resolved.** -/
theorem performs_resolveField {v : Value} (hholds : holdsReference field v = true) :
    Performs p changeId (resolveField s p field v) fun m _ e =>
      FieldTakes s (m.Told p (m.advance p e.lookUps)) changeId field v e := by
  obtain ⟨items, rfl⟩ | ⟨r, hr, heq⟩ := resolveField_cases (s := s) (p := p) hholds
  · refine (performs_resolveList items).imp ?_
    rintro m _ _ ⟨told, rfl, htold, rfl⟩
    exact .list hholds htold
  · rw [heq]
    refine (performs_resolveScalar r).imp ?_
    rintro m _ _ rfl
    refine .scalar hr ?_
    have hasks : (scalarEffect s (m.lookOn p) changeId field r).lookUps
        = (s.examine changeId (targetKind? field) r).lookUps := by simp [scalarEffect]
    rw [hasks]
    exact Session.told_advance p _ m

/-- Fields, one after the other, each take an effect. -/
theorem performs_resolveFields (entries : List (String × Value)) :
    Performs p changeId (resolveFields s p entries) fun m _ e => ∃ effects : List Effect,
      List.Forall₂ (fun entry f =>
        FieldTakes s (m.Told p (m.advance p e.lookUps)) changeId entry.1 entry.2 f) entries effects
      ∧ e = .sum effects := by
  induction entries with
  | nil =>
    refine (performs_pure ()).imp ?_
    rintro m _ _ ⟨-, rfl⟩
    exact ⟨[], .nil, rfl⟩
  | cons entry rest ih =>
    unfold resolveFields
    dsimp only
    split
    · next hholds =>
      refine ((performs_resolveField hholds).bind fun _ => ih).imp ?_
      rintro m _ _ ⟨-, f, e, htakes, ⟨effects, heffects, rfl⟩, rfl⟩
      rw [Effect.lookUps_append, Session.advance_append]
      refine ⟨f :: effects, .cons ?_ (heffects.imp fun _ _ h => ?_), rfl⟩
      · exact htakes.mono fun _ _ htold => htold.mono (.refl p m) (Session.leads_advance p _ _)
      · exact h.mono fun _ _ htold => htold.mono (Session.leads_advance p _ _) (.refl p _)
    · next hidle =>
      refine ih.imp ?_
      rintro m _ _ ⟨effects, heffects, rfl⟩
      refine ⟨{} :: effects, .cons (.idle (Bool.eq_false_iff.mpr hidle)) heffects, ?_⟩
      rw [Effect.sum_cons, Effect.nil_append]

theorem performs_resolveParent (kind ref : String) :
    Performs p changeId (resolveParent s p ⟨kind, ref, none⟩) fun m _ e =>
      e = parentEffect s (m.lookOn p) changeId (some ⟨kind, ref, none⟩) := by
  refine (performs_decided (fun _ => ()) (Finding.notedAsParent changeId ref)
    (fun finding => ?_) fun finding => ?_).imp fun m _ e he => ?_
  · rcases finding with ⟨value, name⟩ | ⟨dependency, name⟩ | ⟨kind, reason⟩
    · exact (comesTo_recordParent _).andThen comesTo_recordResolved
    · exact comesTo_awaiting dependency
    · exact comesTo_recordFault _ _ _
  · rcases finding with _ | _ | _ <;> rfl
  · rw [he.2, parentEffect_of_id_eq_none]

/-- **A change takes an effect by what is told while it is resolved.** -/
theorem performs_resolveChange {c : Change} (haction : c.action ≠ .delete) :
    Performs p c.id (resolveChange s p c) fun m _ e =>
      ChangeTakes s (m.Told p (m.advance p e.lookUps)) c e := by
  have hparent : Performs p c.id (c.parent.elim (pure ()) fun parent =>
      if parent.id.isNone then resolveParent s p parent else pure ())
      fun m _ e => e = parentEffect s (m.lookOn p) c.id c.parent := by
    rcases c.parent with _ | ⟨kind, ref, _ | known⟩
    · exact (performs_pure ()).imp fun _ _ _ h => h.2
    · exact performs_resolveParent kind ref
    · exact (performs_pure ()).imp fun _ _ _ h => h.2
  have hchange : resolveChange s p c = (do
      resolveFields s p c.fields.entries
      c.parent.elim (pure ()) fun parent =>
        if parent.id.isNone then resolveParent s p parent else pure ()) := by
    unfold resolveChange
    rcases c.parent with _ | parent <;> rfl
  rw [hchange]
  refine ((performs_resolveFields c.fields.entries).bind fun _ => hparent).imp ?_
  rintro m _ _ ⟨-, e, _, ⟨effects, heffects, rfl⟩, rfl, rfl⟩
  rw [Effect.lookUps_append, Session.advance_append]
  have hfields := heffects.imp fun _ _ h => h.mono fun _ _ htold =>
    htold.mono (.refl p m) (Session.leads_advance p (parentEffect s
      ((m.advance p (Effect.sum effects).lookUps).lookOn p) c.id c.parent).lookUps _)
  exact .live haction hfields
    ((Session.told_advance p _ _).mono (Session.leads_advance p _ _) (.refl p _))

/-! ## Batches -/

/-- **In a run that ends well every change takes an effect** by what is told on the way, and what is
counted, reported and asked for adds up. -/
theorem exists_effects_of_resolveChanges {changes changes' : List Change} {tally tally' : Tally}
    {session session' : Session}
    (h : resolveChanges s p changes tally session = (.ok tally', changes', session')) :
    ∃ effects : List Effect,
      List.Forall₂ (ChangeTakes s (session.Told p session')) changes effects
      ∧ tally' = tally ++ (Effect.sum effects).report
      ∧ changes' = List.zipWith (fun c e => e.onChange c) changes effects
      ∧ session' = session.advance p (Effect.sum effects).lookUps := by
  induction changes generalizing tally session changes' with
  | nil =>
    obtain ⟨htally, hrest⟩ := Prod.mk.inj h
    obtain ⟨rfl, rfl⟩ := Prod.mk.inj hrest
    obtain rfl := Except.ok.inj htally
    exact ⟨[], .nil, (Tally.append_nil _).symm, rfl, rfl⟩
  | cons c rest ih =>
    rcases resolveChanges_cons_ok h with ⟨hdelete, rest', rfl, hrest⟩
      | ⟨haction, g, rest', hrun, rfl, hrest⟩
    · obtain ⟨effects, htakes, rfl, rfl, hsession⟩ := ih hrest
      refine ⟨{} :: effects, .cons (.delete hdelete) htakes, ?_, rfl, ?_⟩
      · rw [Effect.sum_cons, Effect.nil_append]
      · rw [Effect.sum_cons, Effect.nil_append, hsession]
    · obtain ⟨e, htakes, rfl⟩ :=
        (ends_of_run_ok hrun).mp (performs_resolveChange haction ⟨c, tally, session⟩ rfl)
      obtain ⟨effects, hothers, rfl, rfl, hsession⟩ := ih hrest
      have hnext : (session.advance p e.lookUps).Leads p session' := ⟨_, hsession⟩
      refine ⟨e :: effects, .cons ?_ (hothers.imp fun _ _ h => ?_), ?_, rfl, ?_⟩
      · exact htakes.mono fun _ _ htold => htold.mono (.refl p session) hnext
      · exact h.mono fun _ _ htold =>
          htold.mono (Session.leads_advance p e.lookUps session) (.refl p session')
      · rw [Effect.sum_cons, Effect.report_append, ← Tally.append_assoc]
        rfl
      · rw [Effect.sum_cons, Effect.lookUps_append, Session.advance_append]
        exact hsession

theorem exists_resolveChanges_eq_ok (hp : p.Serves) (changes : List Change) (tally : Tally)
    (session : Session) : ∃ tally' changes' session',
      resolveChanges s p changes tally session = (.ok tally', changes', session') := by
  induction changes generalizing tally session with
  | nil => exact ⟨tally, [], session, rfl⟩
  | cons c rest ih =>
    unfold resolveChanges
    split
    · obtain ⟨tally', rest', session', hrest⟩ := ih tally session
      exact ⟨tally', c :: rest', session', by rw [hrest]⟩
    · next haction =>
      have hends := performs_resolveChange (s := s) (p := p) haction ⟨c, tally, session⟩ rfl
      rcases hrun : (resolveChange s p c).run.run ⟨c, tally, session⟩ with ⟨e | u, g⟩
      · exact absurd hp ((ends_of_run_error hrun).mp hends)
      · obtain ⟨tally', rest', session', hrest⟩ := ih g.tally g.session
        exact ⟨tally', g.change :: rest', session', by simp only [hrest]⟩

end Resolution

variable {p : Provider} {index : DeclaredIndex} {accessors : Accessors Declaration}
  {changes changes' : List Change} {session session' : Session} {tally : Tally}

/-- **Resolution that ends well gives every change an effect** that it takes by what is told on the
way. -/
theorem exists_effects_of_resolveReferences
    (h : resolveReferences p index accessors changes session = (.ok tally, changes', session')) :
    ∃ effects : List Resolution.Effect,
      List.Forall₂ (Resolution.ChangeTakes ⟨upcomingOf changes, index, accessors⟩
        (session.Told p session')) changes effects
      ∧ tally = (Resolution.Effect.sum effects).report
      ∧ changes' = List.zipWith (fun c e => e.onChange c) changes effects
      ∧ session' = session.advance p (Resolution.Effect.sum effects).lookUps := by
  obtain ⟨effects, htakes, htally, hrest⟩ := Resolution.exists_effects_of_resolveChanges h
  exact ⟨effects, htakes, htally.trans (Tally.nil_append _), hrest⟩

/-- **Resolution ends well wherever the provider serves.** -/
theorem exists_resolveReferences_eq_ok (hp : p.Serves) (index : DeclaredIndex)
    (accessors : Accessors Declaration) (changes : List Change) (session : Session) :
    ∃ tally changes' session',
      resolveReferences p index accessors changes session = (.ok tally, changes', session') :=
  Resolution.exists_resolveChanges_eq_ok hp changes {} session

end Reconcile
