import Reconcile.Proofs.Identity

/-!
# Proofs/Identity/Filling — the identifiers that a desired state is given

Matching a desired state to a snapshot gives identifiers to declarations that have none, and changes
nothing else: each takes the identifier of the first managed resource with its kind, name and
namespace (`Declaration.FilledIn`).  It fails at the first declared identifier that names nothing.
Main fact: `identifies_resolveIdentities`; the proof that matching again changes nothing rests on
`identified_identified`.
-/

namespace Reconcile

/-! ## What a declaration is matched to -/

section Matches

variable (s : DesiredState) (snap : Snapshot) (d : Declaration)

/-- **A resource fits a declaration**: it is managed, and it has the kind, the name and the namespace
of the declaration. -/
structure DesiredState.Fits (r : Resource) : Prop where
  kind : r.kind = d.kind
  managed : r.isManaged = true
  name : r.name = d.name
  scope : r.scope = s.scopeOf d

/-- The first resource of a snapshot that fits a declaration. -/
def DesiredState.FirstFit (r : Resource) : Prop :=
  ∃ front rest, snap.resources = front ++ r :: rest ∧ (∀ q ∈ front, ¬ s.Fits d q) ∧ s.Fits d r

/-- **A declared identifier names nothing**: the snapshot covers the kind and has no resource of it
with that identifier. -/
def Declaration.NamesNothing (id : String) : Prop :=
  d.id = some id ∧ snap.covers d.kind = true ∧ ∀ r ∈ snap.resources, r.kind = d.kind → r.id ≠ id

/-- **A declaration with its identifier filled in.** -/
structure Declaration.FilledIn (d' : Declaration) : Prop where
  rest : d' = { d with id := d'.id }
  declared : ∀ id, d.id = some id → d'.id = some id
  found : ∀ id, d.id = some id → snap.covers d.kind = true →
    ∃ r ∈ snap.resources, r.kind = d.kind ∧ r.id = id
  filled : ∀ id, d.id = none → d'.id = some id →
    snap.covers d.kind = true ∧ ∃ r, s.FirstFit snap d r ∧ r.id = id
  missing : d'.id = none
    ↔ d.id = none ∧ (snap.covers d.kind = false ∨ ∀ r ∈ snap.resources, ¬ s.Fits d r)

end Matches

variable {s : DesiredState} {snap : Snapshot} {d : Declaration} {r : Resource}

theorem DesiredState.fits_iff : (r.kind == d.kind && r.isManaged && r.name == d.name
    && r.scope == s.scopeOf d) = true ↔ s.Fits d r := by
  simp only [Bool.and_eq_true, beq_iff_eq]
  constructor
  · rintro ⟨⟨⟨hkind, hmanaged⟩, hname⟩, hscope⟩
    exact ⟨hkind, hmanaged, hname, hscope⟩
  · rintro ⟨hkind, hmanaged, hname, hscope⟩
    exact ⟨⟨⟨hkind, hmanaged⟩, hname⟩, hscope⟩

/-- What is found by name is the first resource that fits. -/
theorem Snapshot.named?_eq_some_iff :
    snap.named? d.kind d.name (s.scopeOf d) = some r ↔ s.FirstFit snap d r := by
  unfold Snapshot.named? DesiredState.FirstFit
  rw [List.find?_eq_some_iff_append, DesiredState.fits_iff]
  simp only [Bool.not_eq_true', ← Bool.not_eq_true, DesiredState.fits_iff]
  constructor
  · rintro ⟨hfits, front, rest, hsplit, hfront⟩
    exact ⟨front, rest, hsplit, hfront, hfits⟩
  · rintro ⟨front, rest, hsplit, hfront, hfits⟩
    exact ⟨hfits, front, rest, hsplit, hfront⟩

theorem Snapshot.named?_eq_none_iff : snap.named? d.kind d.name (s.scopeOf d) = none
    ↔ ∀ r ∈ snap.resources, ¬ s.Fits d r := by
  simp only [Snapshot.named?, List.find?_eq_none, DesiredState.fits_iff]

theorem Snapshot.isSome_find?_iff {kind id : String} :
    (snap.find? kind id).isSome = true ↔ ∃ r ∈ snap.resources, r.kind = kind ∧ r.id = id := by
  simp [Snapshot.find?, List.find?_isSome]

/-- A declared identifier exists where it does not name nothing. -/
theorem exists_iff_not_namesNothing :
    d.Exists snap ↔ ∀ id, ¬ d.NamesNothing snap id := by
  unfold Declaration.Exists Declaration.NamesNothing
  simp only [Snapshot.isSome_find?_iff]
  constructor
  · rintro hexists id ⟨hid, hcovers, hnothing⟩
    obtain ⟨r, hr, hkind, hrid⟩ := hexists hcovers id hid
    exact hnothing r hr hkind hrid
  · intro hnever hcovers id hid
    by_contra hnone
    push Not at hnone
    exact hnever id ⟨hid, hcovers, hnone⟩

/-! ## Filling in -/

/-- **A declaration is identified by filling in its identifier.** -/
theorem filledIn_identify (hexists : d.Exists snap) : d.FilledIn s snap (s.identify snap d) := by
  rcases hcovers : snap.covers d.kind with _ | _
  · rw [DesiredState.identify_of_not_covers hcovers]
    refine ⟨rfl, fun id hid => hid, fun id _ h => ?_, fun id hnone hid => ?_, by simp [hcovers]⟩
    · exact absurd (hcovers.symm.trans h) Bool.false_ne_true
    · exact absurd (hnone.symm.trans hid) nofun
  · have hidentified := DesiredState.id_identify (s := s) hcovers
    refine ⟨?_, fun id hid => ?_, fun id hid _ => ?_, fun id hnone hid => ?_, ?_⟩
    · rw [DesiredState.identify, hcovers, if_pos rfl]
    · rw [hidentified, hid, Option.some_or]
    · exact Snapshot.isSome_find?_iff.mp (hexists hcovers id hid)
    · rw [hidentified, hnone, Option.none_or] at hid
      obtain ⟨r, hr, hrid⟩ := Option.map_eq_some_iff.mp hid
      exact ⟨hcovers, r, Snapshot.named?_eq_some_iff.mp hr, hrid⟩
    · rw [hidentified, Option.or_eq_none_iff, Option.map_eq_none_iff,
        Snapshot.named?_eq_none_iff, hcovers]
      simp

/-- Identifiers that were filled in exist. -/
theorem exists_identify (hexists : d.Exists snap) : (s.identify snap d).Exists snap := by
  intro hcovers id hid
  rw [DesiredState.kind_identify] at hcovers ⊢
  have hfilled := filledIn_identify (s := s) hexists
  rcases hdeclared : d.id with _ | id'
  · obtain ⟨-, r, ⟨front, rest, hsplit, -, hfits⟩, hrid⟩ := hfilled.filled id hdeclared hid
    exact Snapshot.isSome_find?_iff.mpr ⟨r, by simp [hsplit], hfits.kind, hrid⟩
  · obtain rfl : id' = id := Option.some.inj ((hfilled.declared id' hdeclared).symm.trans hid)
    exact hexists hcovers id' hdeclared

namespace DesiredState

/-- **Declarations are identified once and for all.** -/
theorem identify_identify :
    (s.identified snap).identify snap (s.identify snap d) = s.identify snap d := by
  rcases hcovers : snap.covers d.kind with _ | _
  · rw [identify_of_not_covers hcovers, identify_of_not_covers hcovers]
  · have hcovers' : snap.covers (s.identify snap d).kind = true := by rwa [kind_identify]
    -- the second search is the first one again, and its result is there already
    have hagain : (s.identify snap d).id.or ((snap.named? (s.identify snap d).kind
        (s.identify snap d).name ((s.identified snap).scopeOf (s.identify snap d))).map (·.id))
          = (s.identify snap d).id := by
      rw [kind_identify, name_identify, scopeOf_identify, id_identify hcovers, Option.or_assoc,
        Option.or_self]
    rw [identify, if_pos hcovers', hagain]

theorem identified_identified : (s.identified snap).identified snap = s.identified snap := by
  conv_lhs => rw [identified]
  simp only [identified, List.map_map, DesiredState.mk.injEq, true_and]
  exact List.map_congr_left fun d _ => identify_identify

end DesiredState

/-! ## What matching comes to -/

section Ends

variable {P : List String → Prop} {session : Session}

/-- Matching gives the identified state, where every declared identifier exists. -/
theorem resolveIdentities_eq_ok_iff (hP : Distinguished P) (hs : session.Faithful P snap)
    {desired : DesiredState} : (s.resolveIdentities (.ofSnapshot snap) session).1 = .ok desired
      ↔ (∀ d ∈ s.resources, d.Exists snap) ∧ desired = s.identified snap := by
  have hends := matchEnds_resolveIdentities (s := s) hP hs
  generalize s.resolveIdentities (.ofSnapshot snap) session = result at hends ⊢
  cases hends with
  | found hall =>
    constructor
    · intro hdesired
      exact ⟨hall, (Except.ok.inj hdesired).symm⟩
    · rintro ⟨-, rfl⟩
      rfl
  | absent hfirst =>
    refine ⟨nofun, fun h => ?_⟩
    exact absurd hfirst (not_firstFailing_of_forall h.1 _)

/-- Matching fails at the first declared identifier that does not exist, and only there. -/
theorem resolveIdentities_eq_error_iff (hP : Distinguished P) (hs : session.Faithful P snap)
    {e : Failure} : (s.resolveIdentities (.ofSnapshot snap) session).1 = .error e
      ↔ ∃ d id, FirstFailing (Declaration.Exists snap) s.resources d ∧ d.id = some id
        ∧ e = .document (absentIdentity d id) := by
  have hends := matchEnds_resolveIdentities (s := s) hP hs
  generalize s.resolveIdentities (.ofSnapshot snap) session = result at hends ⊢
  cases hends with
  | found hall =>
    refine ⟨nofun, ?_⟩
    rintro ⟨d, id, hfirst, -, -⟩
    exact absurd hfirst (not_firstFailing_of_forall hall d)
  | absent hfirst hid =>
    constructor
    · intro he
      exact ⟨_, _, hfirst, hid, (Except.error.inj he).symm⟩
    · rintro ⟨d', id', hfirst', hid', rfl⟩
      obtain rfl := hfirst.unique hfirst'
      obtain rfl := Option.some.inj (hid.symm.trans hid')
      rfl

/-- Matching an identified state gives the state itself. -/
theorem resolveIdentities_identified (hP : Distinguished P) (hs : session.Faithful P snap)
    (hall : ∀ d ∈ s.resources, d.Exists snap) :
    ((s.identified snap).resolveIdentities (.ofSnapshot snap) session).1
      = .ok (s.identified snap) := by
  refine (resolveIdentities_eq_ok_iff hP hs).mpr ⟨fun d' hd' => ?_, ?_⟩
  · obtain ⟨d, hd, rfl⟩ := List.mem_map.mp hd'
    exact exists_identify (hall d hd)
  · exact DesiredState.identified_identified.symm

end Ends

/-- **Matching a desired state to a snapshot identifies its declarations.**  It succeeds where no
declared identifier names nothing, and then only fills in identifiers; otherwise it fails at the
first declaration whose identifier names nothing.  Matching the result again, in the session that is
left or in a new one, gives the result. -/
structure Identifies (s : DesiredState) (snap : Snapshot) : Prop where
  succeeds : (∃ desired, (s.resolveIdentities (.ofSnapshot snap) {}).1 = .ok desired)
    ↔ ∀ d ∈ s.resources, ∀ id, ¬ d.NamesNothing snap id
  fills : ∀ desired, (s.resolveIdentities (.ofSnapshot snap) {}).1 = .ok desired →
    desired.defaults = s.defaults
      ∧ List.Forall₂ (Declaration.FilledIn s snap) s.resources desired.resources
  fails : ∀ e, (s.resolveIdentities (.ofSnapshot snap) {}).1 = .error e
    ↔ ∃ d id, FirstFailing (fun d => ∀ id, ¬ d.NamesNothing snap id) s.resources d
      ∧ d.NamesNothing snap id ∧ e = .document (absentIdentity d id)
  again : ∀ desired session, s.resolveIdentities (.ofSnapshot snap) {} = (.ok desired, session) →
    (desired.resolveIdentities (.ofSnapshot snap) session).1 = .ok desired
      ∧ (desired.resolveIdentities (.ofSnapshot snap) {}).1 = .ok desired

/-- **Matching a desired state to a snapshot only fills in identifiers that are right.** -/
theorem identifies_resolveIdentities (s : DesiredState) (snap : Snapshot) : Identifies s snap := by
  have hstart : Session.Faithful IsSingle snap {} := Session.faithful_start
  have hexists : Declaration.Exists snap = fun d => ∀ id, ¬ d.NamesNothing snap id :=
    funext fun d => propext exists_iff_not_namesNothing
  refine ⟨?_, fun desired h => ?_, fun e => ?_, fun desired session h => ?_⟩
  · simp only [resolveIdentities_eq_ok_iff distinguished_isSingle hstart, exists_and_left,
      exists_eq, and_true, exists_iff_not_namesNothing]
  · obtain ⟨hall, rfl⟩ := (resolveIdentities_eq_ok_iff distinguished_isSingle hstart).mp h
    refine ⟨rfl, List.forall₂_map_right_iff.mpr (List.forall₂_same.mpr fun d hd => ?_)⟩
    exact filledIn_identify (hall d hd)
  · rw [resolveIdentities_eq_error_iff distinguished_isSingle hstart, hexists]
    refine exists_congr fun d => exists_congr fun id => and_congr_right fun hfirst => ?_
    -- the declared identifier is the one that names nothing
    obtain ⟨front, rest, -, -, hfailing⟩ := hfirst
    push Not at hfailing
    obtain ⟨id', hnothing⟩ := hfailing
    refine and_congr_left fun _ => ⟨fun hid => ?_, fun hnothing => hnothing.1⟩
    obtain rfl := Option.some.inj (hid.symm.trans hnothing.1)
    exact hnothing
  · obtain ⟨rfl, hall, hs⟩ := resolveIdentities_ofSnapshot distinguished_isSingle hstart h
    exact ⟨resolveIdentities_identified distinguished_isSingle hs hall,
      resolveIdentities_identified distinguished_isSingle hstart hall⟩

/-- Four apis of one name: one that nobody manages, one of another namespace, and two that fit. -/
def namesakes : Snapshot where
  resources := [
    { id := "a", kind := "api", name := "Orders" },
    { id := "b", kind := "api", name := "Orders",
      labels := Dict.ofList [(managedLabel, "true"), (namespaceLabel, "billing")] },
    { id := "c", kind := "api", name := "Orders", labels := Dict.singleton managedLabel "true" },
    { id := "d", kind := "api", name := "Orders", labels := Dict.singleton managedLabel "true" }]

/-- Three declared apis: one to be found by its name, one that declares an identifier, and one that
does not exist. -/
def declaredNamesakes : DesiredState where
  resources := [
    { kind := "api", ref := "orders", name := "Orders" },
    { kind := "api", ref := "legacy", name := "Legacy", id := some "a" },
    { kind := "api", ref := "drafts", name := "Drafts" }]

/-- The third namesake is the first that fits; a declared identifier may be that of what nobody
manages. -/
theorem identifies_declaredNamesakes :
    (declaredNamesakes.resolveIdentities (.ofSnapshot namesakes) {}).1.toOption.map
        (fun desired => desired.resources.map (·.id)) = some [some "c", some "a", none]
      ∧ Identifies declaredNamesakes namesakes :=
  ⟨by decide +kernel, identifies_resolveIdentities declaredNamesakes namesakes⟩

end Reconcile
