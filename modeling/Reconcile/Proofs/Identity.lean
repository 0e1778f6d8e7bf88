import Reconcile.Pass
import Reconcile.Proofs.Listings

/-!
# Proofs/Identity — what declarations mean on the remote side

A declaration **means** a resource of the snapshot: the one with its identifier if it has one, else
the first managed one with its kind, name and namespace (`DesiredState.meant?`).  Main fact:
`matchEnds_resolveIdentities` — matching a desired state to a snapshot fills in the identifiers of
what declarations mean, or ends at the first declared identifier of a covered kind that does not
exist; `resolveIdentities_ofSnapshot` is what that says of a success.
-/

namespace Reconcile

namespace DesiredState

/-- **The resource that a declaration means.** -/
def meant? (s : DesiredState) (snap : Snapshot) (d : Declaration) : Option Resource :=
  match d.id with
  | some id => snap.find? d.kind id
  | none => snap.named? d.kind d.name (s.scopeOf d)

/-- A declaration with the identifier of what it means, where the snapshot covers its kind. -/
def identify (s : DesiredState) (snap : Snapshot) (d : Declaration) : Declaration :=
  if snap.covers d.kind then
    { d with id := d.id.or ((snap.named? d.kind d.name (s.scopeOf d)).map (·.id)) }
  else d

/-- The desired state with the identifiers of what its declarations mean. -/
def identified (s : DesiredState) (snap : Snapshot) : DesiredState :=
  { s with resources := s.resources.map (s.identify snap) }

variable {s : DesiredState} {snap : Snapshot} {d : Declaration}

/-! ## What stays as it is -/

@[simp] theorem kind_identify : (s.identify snap d).kind = d.kind := by
  unfold identify
  split <;> rfl

@[simp] theorem ref_identify : (s.identify snap d).ref = d.ref := by
  unfold identify
  split <;> rfl

@[simp] theorem name_identify : (s.identify snap d).name = d.name := by
  unfold identify
  split <;> rfl

@[simp] theorem protect_identify : (s.identify snap d).protect = d.protect := by
  unfold identify
  split <;> rfl

@[simp] theorem description_identify :
    (s.identify snap d).description = d.description := by
  unfold identify
  split <;> rfl

@[simp] theorem scopeOf_identify : (s.identified snap).scopeOf (s.identify snap d) = s.scopeOf d := by
  unfold identify
  split <;> rfl

theorem identify_of_not_covers (h : snap.covers d.kind = false) : s.identify snap d = d := by
  rw [identify, h, if_neg Bool.false_ne_true]

theorem id_identify (h : snap.covers d.kind = true) : (s.identify snap d).id
    = d.id.or ((snap.named? d.kind d.name (s.scopeOf d)).map (·.id)) := by
  rw [identify, h, if_pos rfl]

theorem scopes_identified : (s.identified snap).scopes = s.scopes := by
  simp only [scopes, identified, List.map_map]
  congr 1
  exact List.map_congr_left fun d _ => scopeOf_identify

/-- A pass goes through the same namespaces. -/
@[simp] theorem planningScopes_identified (mode : Mode) :
    planningScopes (s.identified snap) mode = planningScopes s mode := by
  unfold planningScopes
  rw [scopes_identified]
  rfl

/-- The declarations of a kind in a namespace are those from before, with identifiers. -/
@[simp] theorem inScope_identified (kind scope : String) : (s.identified snap).inScope kind scope
    = (s.inScope kind scope).map (s.identify snap) := by
  simp only [inScope, identified, List.filter_map]
  congr 1
  refine List.filter_congr fun d _ => ?_
  have hscope : (s.identified snap).scopeOf (s.identify snap d) = s.scopeOf d := scopeOf_identify
  rw [identified] at hscope
  simp [hscope]

/-- What is found by kind and reference is declared so. -/
theorem of_find? {kind ref : String} (h : s.find? (some kind) ref = some d) :
    d ∈ s.resources ∧ d.kind = kind ∧ d.ref = ref := by
  have hpassed := List.find?_some h
  simp only [Option.all_some, Bool.and_eq_true, beq_iff_eq] at hpassed
  exact ⟨List.mem_of_find?_eq_some h, hpassed.2, hpassed.1⟩

end DesiredState

/-! ## Matching -/

variable {s : DesiredState} {snap : Snapshot} {d : Declaration} {P : List String → Prop}
  {session session' : Session}

/-- A declared identifier of a covered kind exists. -/
def Declaration.Exists (snap : Snapshot) (d : Declaration) : Prop :=
  snap.covers d.kind = true → ∀ id, d.id = some id → (snap.find? d.kind id).isSome = true

/-- **How matching declarations to a snapshot ends**: with the identifiers of what they mean, or at
the first declared identifier that does not exist. -/
inductive MatchEnds (P : List String → Prop) (snap : Snapshot) (ds : List Declaration) {α : Type}
    (identified : α) : Except Failure α × Session → Prop
  | found {session : Session} (hall : ∀ d ∈ ds, d.Exists snap) (hs : session.Faithful P snap) :
      MatchEnds P snap ds identified (.ok identified, session)
  | absent {d : Declaration} {id : String} {session : Session}
      (hfirst : FirstFailing (Declaration.Exists snap) ds d) (hid : d.id = some id)
      (hs : session.Faithful P snap) :
      MatchEnds P snap ds identified (.error (.document (absentIdentity d id)), session)

/-- **Matching a declaration fills in the identifier of what it means.** -/
theorem matchEnds_matchDeclaration (hP : Distinguished P) (hs : session.Faithful P snap) :
    MatchEnds P snap [d] (s.identify snap d) (matchDeclaration (.ofSnapshot snap) s d session) := by
  unfold matchDeclaration
  rcases hid : d.id with _ | id
  · obtain ⟨session₁, hlist, hfaithful⟩ := Session.listAll_ofSnapshot hP hs d.kind
    have hexists : ∀ e ∈ [d], e.Exists snap := by simp [Declaration.Exists, hid]
    dsimp only
    rw [hlist]
    rcases hcovers : snap.covers d.kind with _ | _
    · rw [Snapshot.list, hcovers, DesiredState.identify_of_not_covers hcovers]
      exact .found hexists hfaithful
    · rw [Snapshot.list_singleton hcovers]
      dsimp only
      rw [Snapshot.find?_managedIn_wildcard, DesiredState.identify, hcovers, if_pos rfl, hid,
        Option.none_or]
      exact .found hexists hfaithful
  · obtain ⟨session₁, hget, hfaithful⟩ := Session.get_ofSnapshot hs d.kind id
    dsimp only
    rw [hget]
    rcases hcovers : snap.covers d.kind with _ | _
    · rw [Snapshot.get, hcovers, DesiredState.identify_of_not_covers hcovers]
      exact .found (by simp [Declaration.Exists, hcovers]) hfaithful
    · rw [Snapshot.get_of_covers hcovers]
      rcases hfound : snap.find? d.kind id with _ | r
      · have hmissing : ¬ d.Exists snap := by simp [Declaration.Exists, hcovers, hid, hfound]
        exact .absent ((firstFailing_cons_of_neg hmissing).mpr rfl) hid hfaithful
      · have hsame : s.identify snap d = d := by
          rw [DesiredState.identify, hcovers, if_pos rfl, hid, Option.some_or, ← hid]
        rw [hsame]
        exact .found (by simp [Declaration.Exists, hid, hfound]) hfaithful

theorem matchEnds_matchDeclarations (hP : Distinguished P) (hs : session.Faithful P snap)
    (ds : List Declaration) : MatchEnds P snap ds (ds.map (s.identify snap))
      (matchDeclarations (.ofSnapshot snap) s ds session) := by
  induction ds generalizing session with
  | nil => exact .found (by simp) hs
  | cons d rest ih =>
    have hfirst := matchEnds_matchDeclaration (s := s) (d := d) hP hs
    unfold matchDeclarations
    generalize matchDeclaration (.ofSnapshot snap) s d session = first at hfirst
    cases hfirst with
    | @absent e id session₁ hfirst hid hs₁ =>
      obtain ⟨rfl, hmissing⟩ : d = e ∧ ¬ e.Exists snap := by simpa [firstFailing_cons] using hfirst
      exact .absent ((firstFailing_cons_of_neg hmissing).mpr rfl) hid hs₁
    | @found session₁ hexists hs₁ =>
      have hd : d.Exists snap := hexists d List.mem_cons_self
      have hrest := ih hs₁
      dsimp only
      generalize matchDeclarations (.ofSnapshot snap) s rest session₁ = result at hrest
      cases hrest with
      | found hall hs₂ => exact .found (List.forall_mem_cons.mpr ⟨hd, hall⟩) hs₂
      | absent hfirst hid hs₂ =>
        exact .absent ((firstFailing_cons_of_pos hd).mpr hfirst) hid hs₂

/-- **Matching a desired state** identifies its declarations, or ends at the first identifier that
does not exist. -/
theorem matchEnds_resolveIdentities (hP : Distinguished P) (hs : session.Faithful P snap) :
    MatchEnds P snap s.resources (s.identified snap)
      (s.resolveIdentities (.ofSnapshot snap) session) := by
  have hends := matchEnds_matchDeclarations (s := s) hP hs s.resources
  unfold DesiredState.resolveIdentities
  generalize matchDeclarations (.ofSnapshot snap) s s.resources session = result at hends
  cases hends with
  | found hall hs' => exact .found hall hs'
  | absent hfirst hid hs' => exact .absent hfirst hid hs'

/-- **Matching a desired state fills in the identifiers of what its declarations mean**, and every
declared identifier of a covered kind exists. -/
theorem resolveIdentities_ofSnapshot (hP : Distinguished P) (hs : session.Faithful P snap)
    {desired : DesiredState}
    (h : s.resolveIdentities (.ofSnapshot snap) session = (.ok desired, session')) :
    desired = s.identified snap ∧ (∀ d ∈ s.resources, d.Exists snap)
      ∧ session'.Faithful P snap := by
  have hends := matchEnds_resolveIdentities (s := s) hP hs
  rw [h] at hends
  cases hends with
  | found hall hs' => exact ⟨rfl, hall, hs'⟩

end Reconcile
