import Reconcile.Proofs.Creation
import Reconcile.Proofs.Ends

/-!
# Proofs/Drafting/OwnLabels — labels of the tool in the changes of a planner

Whatever the remote side answers, a planner of declared resources adds deletes, and for its
declarations creates and updates (`KindPlanner.walksFrom_draft`).  A create sends the labels of the
tool as the tool gives them, whatever is declared in their place.  An update sends declared labels as
they are, those that the tool owns among them, so that it leaves the labels of the tool alone exactly
if it sends no labels, or none of them is declared.  Main fact: `labelled_of_draft`.
-/

namespace Reconcile

/-! ## What a step adds to a draft -/

/-- **A draft grows by changes** of which `P` holds. -/
def Draft.Grows (P : Change → Prop) (d d' : Draft) : Prop :=
  ∃ added, d'.plan.changes = d.plan.changes ++ added ∧ ∀ e ∈ added, P e

/-- **A step adds changes** of which `P` holds, wherever it is begun and however it ends; of the value
that it ends with `V` holds. -/
abbrev Adds (P : Change → Prop) {α : Type} (x : Drafting α) (V : α → Prop) : Prop :=
  Walks (Draft.Grows P) (fun d _ d' => d'.plan = d.plan) x V

section Adds

variable {P Q : Change → Prop} {α : Type} {x : Drafting α} {V : α → Prop} {d d' d'' : Draft}

theorem Draft.Grows.of_plan_eq (h : d'.plan = d.plan) : d.Grows P d' :=
  ⟨[], by rw [h, List.append_nil], by simp⟩

theorem Draft.grows_addChange {e : Change} (h : P e) (h' : d'.plan = d.plan.addChange e) :
    d.Grows P d' :=
  ⟨[e], by rw [h']; rfl, by simpa using h⟩

theorem Draft.Grows.trans (h : d.Grows P d') (h' : d'.Grows P d'') : d.Grows P d'' := by
  obtain ⟨added, hadded, hP⟩ := h
  obtain ⟨more, hmore, hP'⟩ := h'
  exact ⟨added ++ more, by rw [hmore, hadded, List.append_assoc],
    fun e he => (List.mem_append.mp he).elim (hP e) (hP' e)⟩

theorem Draft.Grows.imp (h : d.Grows P d') (hPQ : ∀ e, P e → Q e) : d.Grows Q d' := by
  obtain ⟨added, hadded, hP⟩ := h
  exact ⟨added, hadded, fun e he => hPQ e (hP e he)⟩

theorem Adds.imp (h : Adds P x V) (hPQ : ∀ e, P e → Q e) : Adds Q x V :=
  Walks.imp h (fun _ _ hgrows => hgrows.imp hPQ) fun _ hvalue => hvalue

/-- **What a step leaves behind has grown** from where the step was begun. -/
theorem grows_run (h : WalksFrom (Draft.Grows P) (fun d _ d' => d'.plan = d.plan) x d V) :
    d.Grows P (x.run.run d).2 := by
  have hmoves : ∀ {d'}, Relation.ReflTransGen (Draft.Grows P) d d' → d.Grows P d' := fun hmoves =>
    kept_of_moves (fun _ _ hgrows hmore => hgrows.trans hmore) (.of_plan_eq rfl) hmoves
  unfold WalksFrom Ends at h
  rcases hrun : x.run.run d with ⟨_ | a, d'⟩ <;> rw [hrun] at h
  · obtain ⟨t, ht, hstop⟩ := h
    exact (hmoves ht).trans (.of_plan_eq hstop)
  · exact hmoves h.2

/-- A step that leaves the plan alone adds nothing. -/
theorem adds_of_kept (hplan : ∀ d, (x.run.run d).2.plan = d.plan)
    (hvalue : ∀ d a, (x.run.run d).1 = .ok a → V a) : Adds P x V := by
  intro d
  have hplan := hplan d
  have hvalue := hvalue d
  unfold WalksFrom Ends
  rcases hrun : x.run.run d with ⟨_ | a, d'⟩ <;> rw [hrun] at hplan hvalue
  · exact ⟨d, .refl, hplan⟩
  · exact ⟨hvalue a rfl, .single (.of_plan_eq hplan)⟩

theorem adds_read (f : Draft → α) : Adds P (Drafting.read f) fun _ => True :=
  adds_of_kept (fun _ => rfl) fun _ _ _ => trivial

theorem adds_permitted (violation : Option Violation) :
    Adds P (Drafting.permitted violation) fun _ => True := by
  refine adds_of_kept (fun d => ?_) fun _ _ _ => trivial
  rcases violation <;> rfl

/-- **Asking, and then what is done with the answer**, which depends on where it is asked. -/
theorem walksFrom_ask {question : Session → Except StateFault α × Session} {β : Type}
    {f : Except StateFault α → Drafting β} {W : β → Prop} (d : Draft)
    (h : Adds P (f (question d.session).1) W) :
    WalksFrom (Draft.Grows P) (fun d _ d' => d'.plan = d.plan) (Drafting.ask question >>= f) d W := by
  refine ends_bind.mpr ?_
  have hrun : (Drafting.ask question).run.run d
      = (.ok (question d.session).1, { d with session := (question d.session).2 }) := rfl
  have hgrows : d.Grows P { d with session := (question d.session).2 } := .of_plan_eq rfl
  exact (ends_of_run_ok hrun).mpr (h.behind (.single hgrows))

/-- The resource with an identifier is what the remote side answers to some log. -/
theorem adds_get (p : Provider) (kind id : String) : Adds P (Drafting.ask (Session.get p kind id))
    fun answer => ∃ asked, answer = p.get asked kind id :=
  adds_of_kept (fun _ => rfl) fun d _ h => ⟨d.session.asked, (Except.ok.inj h).symm⟩

/-- The value is an answer, or the one for unknown kinds. -/
theorem adds_orUnknown (unknown : α) (answer : Except StateFault α) :
    Adds P (Drafting.orUnknown unknown answer) fun a => a = unknown ∨ answer = .ok a := by
  rcases answer with e | a
  · refine adds_of_kept (fun d => ?_) fun d a h => ?_
    · rw [Drafting.orUnknown]
      split <;> rfl
    · rw [Drafting.orUnknown] at h
      split at h
      · exact .inl (Except.ok.inj h).symm
      · cases h
  · exact walks_pure (.inr rfl)

theorem adds_add {build : Issued → Change × Issued} (h : ∀ issued, P (build issued).1) :
    Adds P (Drafting.add build) fun _ => True := by
  intro d
  have hrun : (Drafting.add build).run.run d = (.ok (), { d with
      plan := d.plan.addChange (build d.issued).1
      issued := (build d.issued).2 }) := rfl
  exact (ends_of_run_ok hrun).mpr ⟨trivial, .single (Draft.grows_addChange (h d.issued) rfl)⟩

theorem adds_addOrFail {build : Issued → Except DocumentFault (Change × Issued)}
    (h : ∀ issued x, build issued = .ok x → P x.1) :
    Adds P (Drafting.addOrFail build) fun _ => True := by
  intro d
  rcases hbuild : build d.issued with fault | x
  · have hrun : (Drafting.addOrFail build).run.run d = (.error (.document fault), d) := by
      simp only [Drafting.addOrFail, ExceptT.run, StateT.run, hbuild]
    exact (ends_of_run_error hrun).mpr ⟨d, .refl, rfl⟩
  · have hrun : (Drafting.addOrFail build).run.run d
        = (.ok (), { d with plan := d.plan.addChange x.1, issued := x.2 }) := by
      simp only [Drafting.addOrFail, ExceptT.run, StateT.run, hbuild]
    exact (ends_of_run_ok hrun).mpr ⟨trivial, .single (Draft.grows_addChange (h _ _ hbuild) rfl)⟩

end Adds

/-! ## What a planner adds -/

namespace KindPlanner

variable {k : KindPlanner} {a : Assignment} {current : List Resource} {d : Declaration}
  {r : Resource}

/-- **A resource stands for a declaration**: it is one of those that are there and matches the
declaration, or the remote side has it for the declared identifier. -/
def StandsFor (k : KindPlanner) (a : Assignment) (current : List Resource) (d : Declaration)
    (r : Resource) : Prop :=
  (r ∈ current ∧ isMatch d r = true)
    ∨ ∃ id asked, d.id = some id ∧ a.provider.get asked k.kind id = .ok (some r)

/-- **A change is made for a declaration**: it creates it with all its fields, or updates a resource
that stands for it with what differs. -/
structure MadeFor (k : KindPlanner) (a : Assignment) (current : List Resource) (d : Declaration)
    (e : Change) : Prop where
  kind : e.kind = k.kind
  ref : e.ref = d.ref
  made : (e.action = .create ∧ e.fields = createFields a.accessors k.kind a.scope d)
    ∨ e.action = .update ∧ ∃ r, k.StandsFor a current d r ∧ e.resourceId = some r.id
      ∧ (e.fields = (k.compare d r).2 ∨ (k.compare d r).1 = false ∧ e.fields = ∅)

theorem adds_planCreate : Adds (k.MadeFor a current d) (k.planCreate a d) fun _ => True := by
  refine (adds_read _).bind fun plan _ => adds_addOrFail fun issued x hbuild => ?_
  obtain rfl := CreateRequest.eq_of_build hbuild
  exact ⟨rfl, rfl, .inl ⟨rfl, rfl⟩⟩

theorem adds_planUpdate (hr : k.StandsFor a current d r) :
    Adds (k.MadeFor a current d) (k.planUpdate a d r) fun _ => True := by
  unfold planUpdate
  rcases hcompare : k.compare d r with ⟨needsUpdate, fields⟩
  dsimp only
  split
  · exact walks_pure trivial
  refine (adds_permitted _).bind fun permitted _ => ?_
  split
  · split
    · exact adds_add fun issued => ⟨rfl, rfl, .inr ⟨rfl, r, hr, rfl, .inr ⟨by rw [hcompare], rfl⟩⟩⟩
    · refine adds_addOrFail fun issued x hbuild => ?_
      obtain rfl := UpdateRequest.eq_of_build hbuild
      exact ⟨rfl, rfl, .inr ⟨rfl, r, hr, rfl, .inl (by rw [hcompare])⟩⟩
  · exact walks_pure trivial

theorem adds_planDelete : Adds (fun e => e.action = .delete) (k.planDelete a r) fun _ => True := by
  refine (adds_permitted _).bind fun permitted _ => ?_
  split
  · exact adds_add fun _ => rfl
  · exact walks_pure trivial

/-- What a declaration adopts stands for it. -/
theorem adds_adopted {P : Change → Prop} (current : List Resource) : Adds P (k.adopted a d)
    fun found => ∀ r, found = some r → k.StandsFor a current d r := by
  unfold adopted
  rcases hid : d.id with _ | id
  · exact walks_pure (by simp)
  · refine (adds_get a.provider k.kind id).bind fun answer hanswer => ?_
    obtain ⟨asked, hasked⟩ := hanswer
    refine Walks.imp (adds_orUnknown none answer) (fun _ _ h => h) fun found hfound r hr => ?_
    rcases hfound with rfl | hok
    · exact absurd hr (by simp)
    · exact .inr ⟨id, asked, hid, by rw [← hasked, hok, hr]⟩

/-- **What is planned for a declaration is made for it.** -/
theorem adds_planDeclared (current : List Resource) :
    Adds (k.MadeFor a current d) (k.planDeclared a current d) fun _ => True := by
  refine (adds_read _).bind fun planned _ => ?_
  split
  · exact walks_pure trivial
  split
  · next r hfind =>
    exact adds_planUpdate (.inl ⟨List.mem_of_find?_eq_some hfind, List.find?_some hfind⟩)
  · refine (adds_adopted current).bind fun found hfound => ?_
    split
    · exact adds_planUpdate (hfound _ rfl)
    · exact adds_planCreate

/-- **A planner adds deletes, and what is made for its declarations** by what is listed. -/
theorem walksFrom_draft (dr : Draft) : WalksFrom
    (Draft.Grows fun e => e.action = .delete
      ∨ ∃ current, (dr.session.list a.provider k.kind [a.scope]).1 = .ok current
        ∧ ∃ d ∈ a.desired.inScope k.kind a.scope, k.MadeFor a current d e)
    (fun d _ d' => d'.plan = d.plan) (k.draft a) dr fun _ => True := by
  refine walksFrom_ask dr ((adds_orUnknown none _).bind fun listed hlisted => ?_)
  split
  · exact walks_pure trivial
  · next current =>
    have hcurrent : (dr.session.list a.provider k.kind [a.scope]).1 = .ok current := by
      rcases hlisted with hnone | hok
      · exact absurd hnone (by simp)
      · rcases hanswer : (dr.session.list a.provider k.kind [a.scope]).1 with e | rs <;>
          rw [hanswer] at hok
        · cases hok
        · rw [Option.some.inj (Except.ok.inj hok)]
    refine (walks_forEach fun d hd => (adds_planDeclared current).imp fun e he =>
      .inr ⟨current, hcurrent, d, hd, he⟩).bind fun _ _ => ?_
    split
    · exact walks_forEach fun r _ => adds_planDelete.imp fun _ => .inl
    · exact walks_pure trivial

end KindPlanner

/-! ## Labels of the tool -/

/-- What a change sends for a label. -/
def Change.label? (e : Change) (key : String) : Option Value :=
  (e.fields.get? labelsField).bind fun v => v.child? key

/-- **Of the labels that the tool owns, a change sends these.** -/
def Change.SendsOwn (e : Change) (labels : Dict String) : Prop :=
  ∀ key, isManagementLabel key = true → e.label? key = (labels.get? key).map .text

/-- Among the declared labels is one that the tool owns. -/
def Declaration.DeclaresOwn (d : Declaration) : Prop :=
  ∃ labels key, d.labels = .value labels ∧ isManagementLabel key = true ∧ labels.get? key ≠ none

/-- **What a change for a declaration does with labels of the tool.**  A create sends those of the
tool.  An update sends the declared labels as they are where labels of the user differ, so that it
sends none of the tool exactly if it sends no labels, or none of the tool is declared. -/
structure Change.LabelledFor (e : Change) (k : KindPlanner) (a : Assignment)
    (current : List Resource) (d : Declaration) : Prop where
  kind : e.kind = k.kind
  ref : e.ref = d.ref
  kept : e.action ≠ .delete
  created : e.action = .create → e.SendsOwn (managementLabels a.scope d.isProtected)
  updated : e.action = .update → d.fields.get? labelsField = none →
    ∃ r, k.StandsFor a current d r ∧ e.resourceId = some r.id
      ∧ e.fields.get? labelsField = labelsChange? d r
  sendsNone_iff : e.action = .update → d.fields.get? labelsField = none →
    (e.SendsOwn ∅ ↔ e.fields.get? labelsField = none ∨ ¬d.DeclaresOwn)

section Labels

variable {k : KindPlanner} {a : Assignment} {current : List Resource} {d : Declaration}
  {r : Resource} {e : Change}

theorem Value.child?_ofTexts (labels : Dict String) (key : String) :
    (Value.ofTexts labels).child? key = (labels.get? key).map .text :=
  Dict.get?_map Value.text labels key

/-- A create sends the labels of the tool as they are. -/
theorem Change.sendsOwn_of_created
    (h : e.fields = createFields a.accessors k.kind a.scope d) :
    e.SendsOwn (managementLabels a.scope d.isProtected) := by
  intro key hown
  rw [Change.label?, h, get?_createFields_labels, Option.bind_some, Value.child?_ofTexts,
    get?_createdLabels_of_own hown]

/-- The labels of an update are those that differ. -/
theorem get?_changedFields_labels (hfield : d.fields.get? labelsField = none) :
    (changedFields d r).get? labelsField = labelsChange? d r := by
  rw [get?_changedFields, hfield, attributeChange?_labelsField, Option.filter_none, Option.none_or]

theorem Change.sendsOwn_empty_of_label? (h : ∀ key, e.label? key = none) : e.SendsOwn ∅ :=
  fun key _ => h key

/-- A change that sends labels that differ sends none of the tool exactly if it sends no labels, or
none of the tool is declared. -/
theorem Change.sendsOwn_empty_iff (h : e.fields.get? labelsField = labelsChange? d r) :
    e.SendsOwn ∅ ↔ e.fields.get? labelsField = none ∨ ¬d.DeclaresOwn := by
  rcases hsent : e.fields.get? labelsField with _ | v
  · exact iff_of_true (sendsOwn_empty_of_label? fun key => by rw [label?, hsent]; rfl) (.inl rfl)
  have hdeclared : d.labels.toField .ofTexts = some v := toField_of_labelsChange? (h.symm.trans hsent)
  rw [or_iff_right (by simp)]
  rcases hlabels : d.labels with _ | _ | labels <;> rw [hlabels] at hdeclared
  · exact absurd hdeclared (by simp [Nullable.toField])
  · -- cleared labels are sent as such, and hold no label
    obtain rfl := Option.some.inj hdeclared
    refine iff_of_true (sendsOwn_empty_of_label? fun key => by rw [label?, hsent]; rfl) ?_
    rintro ⟨labels, key, hvalue, -⟩
    exact absurd (hlabels.symm.trans hvalue) (by simp)
  · obtain rfl := Option.some.inj hdeclared
    have hlabel : ∀ key, e.label? key = (labels.get? key).map .text := fun key => by
      rw [label?, hsent, Option.bind_some, Value.child?_ofTexts]
    constructor
    · rintro hnone ⟨labels', key, hvalue, hown, hget⟩
      obtain rfl := Nullable.value.inj (hlabels.symm.trans hvalue)
      exact hget (Option.map_eq_none_iff.mp ((hlabel key).symm.trans (hnone key hown)))
    · intro hnone key hown
      have hget : labels.get? key = none := by
        by_contra hget
        exact hnone ⟨labels, key, hlabels, hown, hget⟩
      rw [hlabel, hget]
      rfl

/-- An update sends what differs, also where only the protection changes. -/
theorem KindPlanner.MadeFor.fields_of_update (h : k.MadeFor a current d e)
    (hcompare : k.compare = compareFields) (haction : e.action = .update) :
    ∃ r, k.StandsFor a current d r ∧ e.resourceId = some r.id ∧ e.fields = changedFields d r := by
  rcases h.made with ⟨hcreate, -⟩ | ⟨-, r, hr, hid, hfields⟩
  · exact absurd (haction.symm.trans hcreate) (by decide)
  rw [hcompare] at hfields
  refine ⟨r, hr, hid, hfields.elim id fun ⟨hsame, hempty⟩ => ?_⟩
  have hnothing : changedFields d r = ∅ := Dict.isEmpty_iff.mp (by simpa [compareFields] using hsame)
  rw [hempty, hnothing]

/-- **What is made for a declaration has its labels.** -/
theorem KindPlanner.MadeFor.labelledFor (h : k.MadeFor a current d e)
    (hcompare : k.compare = compareFields) : e.LabelledFor k a current d where
  kind := h.kind
  ref := h.ref
  kept := by rcases h.made with ⟨haction, -⟩ | ⟨haction, -⟩ <;> rw [haction] <;> decide
  created hcreate := by
    rcases h.made with ⟨-, hfields⟩ | ⟨hupdate, -⟩
    · exact Change.sendsOwn_of_created hfields
    · exact absurd (hcreate.symm.trans hupdate) (by decide)
  updated haction hfield := by
    obtain ⟨r, hr, hid, hfields⟩ := h.fields_of_update hcompare haction
    exact ⟨r, hr, hid, by rw [hfields, get?_changedFields_labels hfield]⟩
  sendsNone_iff haction hfield := by
    obtain ⟨r, -, -, hfields⟩ := h.fields_of_update hcompare haction
    exact Change.sendsOwn_empty_iff (r := r) (by rw [hfields, get?_changedFields_labels hfield])

/-- **What a planner does with labels of the tool**, for any declaration; what it drafts are deletes
and changes for its declarations, by what is listed where it begins. -/
theorem labelled_of_draft (hcompare : k.compare = compareFields) (a : Assignment) (dr : Draft) :
    (∀ current d, dr.Grows (fun e => e.LabelledFor k a current d)
      ((k.planDeclared a current d).run.run dr).2)
    ∧ dr.Grows (fun e => e.action = .delete
        ∨ ∃ current, (dr.session.list a.provider k.kind [a.scope]).1 = .ok current
          ∧ ∃ d ∈ a.desired.inScope k.kind a.scope, e.LabelledFor k a current d)
      ((k.draft a).run.run dr).2 := by
  constructor
  · intro current d
    exact (grows_run (KindPlanner.adds_planDeclared current dr)).imp fun e he =>
      he.labelledFor hcompare
  · refine (grows_run (KindPlanner.walksFrom_draft dr)).imp fun e => Or.imp_right ?_
    rintro ⟨current, hcurrent, d, hd, hmade⟩
    exact ⟨current, hcurrent, d, hd, hmade.labelledFor hcompare⟩

end Labels

/-- An api that is declared with a namespace for a label. -/
def relabelledOrders : Declaration where
  kind := "api"
  ref := "orders"
  name := "Orders"
  labels := .value (Dict.ofList [("DECLPLAN-namespace", "finance"), ("team", "core")])

/-- A protected api that is declared with labels that say otherwise. -/
def unmarkedBilling : Declaration where
  kind := "api"
  ref := "billing"
  name := "Billing"
  protect := some true
  labels := .value (Dict.ofList [("DECLPLAN-managed", "no"), ("DECLPLAN-protected", "false")])

/-- The first of them is there, with another label of the user. -/
def salesOrders : Snapshot where
  resources := [
    { id := "a1", kind := "api", name := "Orders"
      labels := (managementLabels defaultNamespace false).insert "team" "sales" }]

/-- Both of them are asked for. -/
def relabelledApis : Assignment where
  provider := .ofSnapshot salesOrders
  accessors := standardAccessors
  desired := { resources := [relabelledOrders, unmarkedBilling] }
  scope := defaultNamespace
  mode := .apply

/-- A planner of apis that compares fields. -/
def apiPlanner : KindPlanner where
  kind := "api"

/-- A draft without changes. -/
def blankDraft : Draft where
  plan := .start .apply Plan.defaultGenerator default

/-- What the planner drafts. -/
def relabelledDraft : Draft := ((apiPlanner.draft relabelledApis).run.run blankDraft).2

theorem labelled_relabelledDraft : apiPlanner.compare = compareFields
    ∧ relabelledApis.desired.inScope apiPlanner.kind relabelledApis.scope
      = [relabelledOrders, unmarkedBilling]
    ∧ relabelledDraft.plan.changes.map (fun e => (e.action, e.ref))
      = [(.update, "orders"), (.create, "billing")]
    ∧ blankDraft.Grows (fun e => e.action = .delete
        ∨ ∃ current, (blankDraft.session.list relabelledApis.provider apiPlanner.kind
            [relabelledApis.scope]).1 = .ok current
          ∧ ∃ d ∈ relabelledApis.desired.inScope apiPlanner.kind relabelledApis.scope,
            e.LabelledFor apiPlanner relabelledApis current d)
      relabelledDraft :=
  ⟨rfl, rfl, by decide, (labelled_of_draft rfl relabelledApis blankDraft).2⟩

/-- **An update can move a resource to a namespace that is declared for a label.** -/
theorem not_sendsOwn_relabelledOrders : relabelledOrders.fields.get? labelsField = none
    ∧ ∃ e ∈ relabelledDraft.plan.changes, e.action = .update ∧ e.ref = relabelledOrders.ref
      ∧ e.label? namespaceLabel = some (.text "finance") ∧ ¬e.SendsOwn ∅ := by
  obtain ⟨e, hmem, hupdate, href, hlabel⟩ : ∃ e ∈ relabelledDraft.plan.changes,
      e.action = .update ∧ e.ref = relabelledOrders.ref
        ∧ e.label? namespaceLabel = some (.text "finance") :=
    ⟨_, List.mem_cons_self, rfl, rfl, rfl⟩
  refine ⟨rfl, e, hmem, hupdate, href, hlabel, fun hnone => ?_⟩
  exact absurd (hlabel.symm.trans (hnone namespaceLabel (by decide))) (by simp)

end Reconcile
