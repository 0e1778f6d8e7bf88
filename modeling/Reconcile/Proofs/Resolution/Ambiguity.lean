import Mathlib.Data.Finset.Card
import Reconcile.Proofs.Resolution.Parallel

/-!
# Proofs/Resolution/Ambiguity — references of no known kind that name resources of several kinds

Creates of the batch and declarations are told apart: a reference is ambiguous if the creates with
its name are of several kinds, or the declarations are (`isAmbiguous_iff`).  What is ambiguous is
reported and reported only then (`Effect.Truthful`), nothing is written down for its field, and
whatever its change waits for is named by another reference (`exists_refers_of_awaited`):
`refuses_resolveReferences`.  One create and one declaration, of two kinds, are not ambiguous.
-/

namespace Reconcile

/-! ## Resources of several kinds -/

/-- Two of the kinds differ. -/
def SeveralKinds (kinds : List String) : Prop := ∃ a ∈ kinds, ∃ b ∈ kinds, a ≠ b

/-- The kinds of the creates of a batch, other than a change itself, with a reference. -/
def createdKinds (changes : List Change) (changeId ref : String) : List String :=
  (changes.filter fun e => e.action == .create && e.ref == ref && e.id != changeId).map (·.kind)

/-- The kinds of the declarations with a reference. -/
def DesiredState.kindsOf (state : DesiredState) (ref : String) : List String :=
  (state.resources.filter fun d => d.ref == ref).map (·.kind)

/-- **A reference of a change is ambiguous** if the other creates of the batch with its name are of
several kinds, or the declarations with its name are. -/
def Ambiguous (state : DesiredState) (changes : List Change) (changeId ref : String) : Prop :=
  SeveralKinds (createdKinds changes changeId ref) ∨ SeveralKinds (state.kindsOf ref)

theorem one_lt_length_sortedSet_iff {kinds : List String} :
    1 < (sortedSet kinds).length ↔ SeveralKinds kinds := by
  have hnodup : (sortedSet kinds).Nodup :=
    (ascending_sortedSet kinds).imp fun hlt => by
      rintro rfl
      exact String.lt_irrefl _ hlt
  rw [← List.toFinset_card_of_nodup hnodup, Finset.one_lt_card, SeveralKinds]
  simp only [List.mem_toFinset, mem_sortedSet]

namespace Resolution

variable {s : Surroundings} {look : Look} {changeId field ref : String} {kind : Option String}
  {r : Reference} {e f : Effect} {c : Change} {v : Value} {Told : List String → Look → Prop}

theorem isAmbiguous_iff {changes : List Change} {state : DesiredState}
    {accessors : Accessors Declaration} {changeId ref : String} :
    (Surroundings.mk (upcomingOf changes) state.index accessors).isAmbiguous changeId ref = true
      ↔ Ambiguous state changes changeId ref := by
  have hcreated : ((upcomingOf changes).filter fun u => u.ref == ref && u.id != changeId).map
      (·.kind) = createdKinds changes changeId ref := by
    rw [upcomingOf, createdKinds, List.filter_map, List.map_map, List.filter_filter]
    refine congrArg (List.map _) (List.filter_congr fun e _ => ?_)
    simp only [Function.comp_apply]
    rcases e.action == .create with _ | _ <;> simp
  unfold Surroundings.isAmbiguous
  rw [decide_eq_true_iff, hcreated, lt_max_iff, one_lt_length_sortedSet_iff]
  exact or_congr Iff.rfl one_lt_length_sortedSet_iff

/-! ## Findings -/

theorem examine_of_isAmbiguous (h : s.isAmbiguous changeId r.target = true) :
    s.examine changeId none r = .settled (.missing none ambiguousReason) := by
  simp [Surroundings.examine, h]

theorem find_of_isAmbiguous (h : s.isAmbiguous changeId r.target = true) :
    s.find look changeId none r = .missing none ambiguousReason :=
  Surroundings.find_of_settled (examine_of_isAmbiguous h) look

/-- Only what is ambiguous is refused as ambiguous. -/
theorem isAmbiguous_of_find (h : s.find look changeId kind r = .missing none ambiguousReason) :
    s.isAmbiguous changeId r.target = true := by
  unfold Surroundings.find at h
  split at h
  · next finding hexamine =>
    subst h
    unfold Surroundings.examine at hexamine
    split at hexamine
    · next hambiguous => exact (Bool.and_eq_true_iff.mp hambiguous).2
    · dsimp only at hexamine
      split at hexamine
      · exact absurd hexamine (by simp)
      · split at hexamine
        · exact absurd hexamine (by simp)
        · split at hexamine
          · exact absurd hexamine (by simp)
          · split at hexamine
            · exact absurd hexamine (by simp [ambiguousReason])
            · exact absurd hexamine (by simp)
  · next k name _ =>
    obtain ⟨_, hmissing⟩ | ⟨_, _, -, -, hknown⟩ :=
      Surroundings.conclude_cases r k name (look k name)
    · exact absurd (hmissing.symm.trans h) (by simp)
    · exact absurd (hknown.symm.trans h) (by simp)

/-! ## What is reported as ambiguous -/

/-- What the effect reports as ambiguous is ambiguous. -/
def Effect.Truthful (s : Surroundings) (e : Effect) : Prop :=
  ∀ x ∈ e.report.faults, x.kind = none → x.reason = ambiguousReason →
    s.isAmbiguous x.changeId x.target = true

theorem truthful_of_faults_eq_nil (h : e.report.faults = []) : e.Truthful s := by
  simp [Effect.Truthful, h]

theorem Effect.Truthful.append (he : e.Truthful s) (hf : f.Truthful s) : (e ++ f).Truthful s :=
  fun x hx => (List.mem_append.mp hx).elim (he x) (hf x)

theorem truthful_sum {effects : List Effect} (h : ∀ e ∈ effects, e.Truthful s) :
    (Effect.sum effects).Truthful s := by
  intro x hx
  rw [Effect.faults_sum] at hx
  obtain ⟨e, he, hx⟩ := List.mem_flatMap.mp hx
  exact h e he x hx

/-- A fault that says why nothing was found says so truthfully. -/
theorem truthful_addFault {k : Option String} {reason : String}
    (hfind : s.find look changeId kind r = .missing k reason) (field : String) :
    Effect.Truthful s
      { report := Tally.addFault {} ⟨changeId, field, r.target, k, reason⟩ } := by
  intro x hx hkind hreason
  obtain rfl := List.mem_singleton.mp hx
  obtain rfl : k = none := hkind
  obtain rfl : reason = ambiguousReason := hreason
  exact isAmbiguous_of_find hfind

theorem truthful_referenceEffect (s : Surroundings) (look : Look) (changeId field : String)
    (r : Reference) : (referenceEffect s look changeId field r).Truthful s := by
  refine Effect.Truthful.append (truthful_of_faults_eq_nil rfl) ?_
  rcases hfind : s.find look changeId (targetKind? field) r with ⟨value, name⟩
    | ⟨dependency, name⟩ | ⟨k, reason⟩
  · exact truthful_of_faults_eq_nil rfl
  · exact truthful_of_faults_eq_nil rfl
  · exact truthful_addFault hfind field

theorem truthful_itemEffect (s : Surroundings) (look : Look) (changeId field : String)
    (item : Value) : (itemEffect s look changeId field item).Truthful s := by
  unfold itemEffect
  split
  · exact truthful_of_faults_eq_nil rfl
  · split
    · intro x hx _ hreason
      obtain rfl := List.mem_singleton.mp hx
      exact absurd hreason (by simp [ambiguousReason])
    · exact truthful_referenceEffect s look changeId field _

theorem FieldTakes.truthful (h : FieldTakes s Told changeId field v e) : e.Truthful s := by
  cases h with
  | idle => exact truthful_of_faults_eq_nil rfl
  | scalar =>
    exact (truthful_referenceEffect s _ changeId field _).append (truthful_of_faults_eq_nil rfl)
  | list =>
    refine (truthful_sum fun e he => ?_).append (truthful_of_faults_eq_nil rfl)
    obtain ⟨x, -, rfl⟩ := List.mem_map.mp he
    exact truthful_itemEffect s x.2 changeId field x.1

/-- A parent has a kind, so that it is never ambiguous. -/
theorem truthful_parentEffect (parent : Option Parent) :
    (parentEffect s look changeId parent).Truthful s := by
  rcases parent with _ | ⟨kind, ref, _ | known⟩
  · exact truthful_of_faults_eq_nil rfl
  · rw [parentEffect_of_id_eq_none]
    refine Effect.Truthful.append (truthful_of_faults_eq_nil rfl) ?_
    rcases hfind : s.find look changeId (some kind) (.toId ref) with ⟨value, name⟩
      | ⟨dependency, name⟩ | ⟨k, reason⟩
    · exact truthful_of_faults_eq_nil rfl
    · exact truthful_of_faults_eq_nil rfl
    · exact truthful_addFault hfind "parent"
  · exact truthful_of_faults_eq_nil rfl

/-- **What a change takes reports as ambiguous only what is.** -/
theorem ChangeTakes.truthful (h : ChangeTakes s Told c e) : e.Truthful s := by
  cases h with
  | delete => exact truthful_of_faults_eq_nil rfl
  | live _ hfields _ =>
    refine (truthful_sum fun e he => ?_).append (truthful_parentEffect _)
    obtain ⟨_, -, htakes⟩ := exists_left_of_mem hfields he
    exact htakes.truthful

/-! ## What a change waits for -/

/-- **What an effect waits for is named by a reference of the change**: that is decided without the
remote side. -/
def Effect.WaitsAsNamed (s : Surroundings) (c : Change) (e : Effect) : Prop :=
  ∀ d ∈ e.awaited, ∃ kind r name, c.Refers kind r
    ∧ s.examine c.id kind r = .settled (.pending d name)

theorem waitsAsNamed_nil (h : e.awaited = []) : e.WaitsAsNamed s c := by
  simp [Effect.WaitsAsNamed, h]

theorem Effect.WaitsAsNamed.append (he : e.WaitsAsNamed s c) (hf : f.WaitsAsNamed s c) :
    (e ++ f).WaitsAsNamed s c :=
  fun d hd => (List.mem_append.mp hd).elim (he d) (hf d)

theorem waitsAsNamed_sum {effects : List Effect} (h : ∀ e ∈ effects, e.WaitsAsNamed s c) :
    (Effect.sum effects).WaitsAsNamed s c := by
  intro d hd
  rw [Effect.awaited_sum] at hd
  obtain ⟨e, he, hd⟩ := List.mem_flatMap.mp hd
  exact h e he d hd

/-- What is found pending was pending before the remote side was asked. -/
theorem examine_of_find_eq_pending {dependency name : String}
    (h : s.find look changeId kind r = .pending dependency name) :
    s.examine changeId kind r = .settled (.pending dependency name) := by
  unfold Surroundings.find at h
  split at h
  · next finding hexamine => rw [hexamine, h]
  · exact absurd h (Surroundings.conclude_ne_pending _ _ _ _ _ _)

theorem waitsAsNamed_referenceEffect (hrefers : c.Refers (targetKind? field) r) :
    (referenceEffect s look c.id field r).WaitsAsNamed s c := by
  intro d hd
  rw [awaited_referenceEffect] at hd
  rcases hfind : s.find look c.id (targetKind? field) r with ⟨value, name⟩ | ⟨dependency, name⟩
    | ⟨k, reason⟩ <;> rw [hfind] at hd
  · exact absurd hd List.not_mem_nil
  · obtain rfl := List.mem_singleton.mp hd
    exact ⟨_, r, name, hrefers, examine_of_find_eq_pending hfind⟩
  · exact absurd hd List.not_mem_nil

theorem FieldTakes.waitsAsNamed (h : FieldTakes s Told c.id field v e)
    (hv : c.fields.get? field = some v) : e.WaitsAsNamed s c := by
  cases h with
  | idle => exact waitsAsNamed_nil rfl
  | scalar hr => exact (waitsAsNamed_referenceEffect (.scalar hv hr)).append (waitsAsNamed_nil rfl)
  | @list told =>
    refine (waitsAsNamed_sum fun e he => ?_).append (waitsAsNamed_nil rfl)
    obtain ⟨x, hx, rfl⟩ := List.mem_map.mp he
    unfold itemEffect
    split
    · exact waitsAsNamed_nil rfl
    · split
      · exact waitsAsNamed_nil rfl
      · next r hr =>
        exact waitsAsNamed_referenceEffect (.item hv (List.mem_map_of_mem hx) hr)

/-- **What a change waits for is named by one of its references.** -/
theorem ChangeTakes.waitsAsNamed (h : ChangeTakes s Told c e) : e.WaitsAsNamed s c := by
  cases h with
  | delete => exact waitsAsNamed_nil rfl
  | @live effects look _ hfields _ =>
    refine (waitsAsNamed_sum fun e he => ?_).append ?_
    · obtain ⟨⟨key, v⟩, hentry, htakes⟩ := exists_left_of_mem hfields he
      exact htakes.waitsAsNamed (Dict.mem_entries_iff.mp hentry)
    · rcases hparent : c.parent with _ | ⟨kind, ref, _ | known⟩
      · exact waitsAsNamed_nil rfl
      · rw [parentEffect_of_id_eq_none]
        refine (waitsAsNamed_nil rfl).append fun d hd => ?_
        rcases hfind : s.find look c.id (some kind) (.toId ref) with ⟨value, name⟩
          | ⟨dependency, name⟩ | ⟨k, reason⟩ <;> rw [hfind] at hd
        · exact absurd hd List.not_mem_nil
        · obtain rfl := List.mem_singleton.mp hd
          exact ⟨_, _, name, .parent hparent rfl, examine_of_find_eq_pending hfind⟩
        · exact absurd hd List.not_mem_nil
      · exact waitsAsNamed_nil rfl

/-! ## What is refused -/

/-- Where no kind is known only a written reference is one. -/
theorem eq_reference_of_referenceIn? (hr : referenceIn? none v = some r) : v = .reference r := by
  cases v with
  | reference r' => exact congrArg Value.reference (Option.some.inj hr)
  | _ => exact absurd hr (by simp [referenceIn?, isNameOf])

/-- A value that holds a reference is looked at. -/
theorem holdsReference_of_holds (hr : v.Holds (targetKind? field) r) :
    holdsReference field v = true := by
  cases hr with
  | scalar hr => exact (holdsReference_of_referenceIn? hr).1
  | item hitem hr => exact List.any_eq_true.mpr ⟨_, hitem, by simp [hr]⟩

/-- An item that is an ambiguous reference fails. -/
theorem itemFails_of_isAmbiguous {item : Value} (hkind : targetKind? field = none)
    (hr : referenceIn? none item = some r) (h : s.isAmbiguous changeId r.target = true) :
    ItemFails s look changeId field item := by
  have hplain : item.isRemoteId = false := by
    rw [eq_reference_of_referenceIn? hr]
    rfl
  have hfind : s.find look changeId (targetKind? field) r = .missing none ambiguousReason := by
    rw [hkind]
    exact find_of_isAmbiguous h
  exact .missing hplain (hkind ▸ hr) hfind

/-- The effect of an ambiguous reference, whatever is looked up. -/
theorem faults_referenceEffect_of_isAmbiguous (look : Look) (hkind : targetKind? field = none)
    (h : s.isAmbiguous changeId r.target = true) :
    (referenceEffect s look changeId field r).report.faults
      = [⟨changeId, field, r.target, none, ambiguousReason⟩] := by
  simp [referenceEffect, hkind, find_of_isAmbiguous h, Finding.noted, Tally.addFault,
    Tally.append_eq]

/-- **An ambiguous reference is reported, and nothing is written down for its field.** -/
theorem FieldTakes.refuses (htakes : FieldTakes s Told changeId field v e)
    (hkind : targetKind? field = none) (hr : v.Holds none r)
    (h : s.isAmbiguous changeId r.target = true) :
    e.written = [] ∧ ⟨changeId, field, r.target, none, ambiguousReason⟩ ∈ e.report.faults := by
  cases htakes with
  | idle hidle => exact absurd ((holdsReference_of_holds (hkind ▸ hr)).symm.trans hidle) (by simp)
  | @scalar _ r' look hr' =>
    rw [hkind] at hr'
    cases hr with
    | scalar hr =>
      obtain rfl := Option.some.inj (hr.symm.trans hr')
      refine ⟨?_, ?_⟩
      · rw [written_scalarEffect, hkind, find_of_isAmbiguous h]
        rfl
      · refine List.mem_append_left _ ?_
        rw [faults_referenceEffect_of_isAmbiguous look hkind h]
        exact List.mem_singleton_self _
    | item => exact absurd hr' (by simp [referenceIn?])
  | @list told _ _ =>
    cases hr with
    | scalar hr => exact absurd hr (by simp [referenceIn?])
    | item hitem hr =>
      obtain ⟨x, hx, rfl⟩ := List.mem_map.mp hitem
      refine ⟨?_, List.mem_append_left _ ?_⟩
      · have hnone : recorded? (told.map fun x => itemOf? s x.2 changeId field x.1) = none := by
          rw [recorded?_eq_none_iff (by simpa using List.ne_nil_of_mem hx)]
          exact List.mem_map.mpr ⟨x, hx, (itemFails_of_isAmbiguous hkind hr h).itemOf?_eq⟩
        rw [written_toldEffect, hnone]
        rfl
      · rw [Effect.faults_sum, List.flatMap_map]
        refine List.mem_flatMap.mpr ⟨x, hx, ?_⟩
        obtain ⟨item, look⟩ := x
        obtain rfl := eq_reference_of_referenceIn? hr
        have heffect : itemEffect s look changeId field (.reference r)
            = referenceEffect s look changeId field r := rfl
        rw [heffect, faults_referenceEffect_of_isAmbiguous look hkind h]
        exact List.mem_singleton_self _

end Resolution

/-- **A reference is refused**: nothing is written down for its field, and whatever its change waits
for that it did not wait for before is a create that another one of its references names. -/
structure Refused (changes : List Change) (c c' : Change) (field : String) (r : Reference) :
    Prop where
  unwritten : c'.references.get? field = c.references.get? field
  awaited : ∀ d ∈ c'.dependsOn, d ∈ c.dependsOn ∨ ∃ kind r', c.Refers kind r'
    ∧ (kind = none → r'.target ≠ r.target) ∧ ∃ e ∈ changes, e.id = d ∧ e.action = .create
      ∧ e.ref = r'.target ∧ ∀ k, kind = some k → e.kind = k

namespace Resolution

variable {changes : List Change} {index : DeclaredIndex} {accessors : Accessors Declaration}
  {Told : List String → Look → Prop} {c : Change} {e : Effect} {field : String} {r : Reference}

/-- What a change waits for on account of its references, but not of an ambiguous one. -/
theorem exists_refers_of_awaited
    (hwaits : e.WaitsAsNamed ⟨upcomingOf changes, index, accessors⟩ c)
    (h : (Surroundings.mk (upcomingOf changes) index accessors).isAmbiguous c.id r.target = true)
    {d : String} (hd : d ∈ e.awaited) : ∃ kind r', c.Refers kind r'
      ∧ (kind = none → r'.target ≠ r.target) ∧ ∃ e ∈ changes, e.id = d ∧ e.action = .create
        ∧ e.ref = r'.target ∧ ∀ k, kind = some k → e.kind = k := by
  obtain ⟨kind, r', name, hrefers, hexamine⟩ := hwaits d hd
  refine ⟨kind, r', hrefers, ?_, ?_⟩
  · rintro rfl htarget
    rw [examine_of_isAmbiguous (htarget ▸ h)] at hexamine
    exact absurd hexamine (by simp)
  · obtain ⟨_, hmissing⟩ | ⟨_, _, hknown, -⟩ | ⟨u, _, hpending, hu⟩ :=
      Surroundings.examine_cases hexamine
    · exact absurd hmissing (by simp)
    · exact absurd hknown (by simp)
    · obtain ⟨rfl, -⟩ := Finding.pending.inj hpending
      obtain ⟨hmem, -, href, hkind⟩ := Surroundings.of_upcoming? hu
      obtain ⟨e, he, rfl⟩ := List.mem_map.mp hmem
      obtain ⟨he, haction⟩ := List.mem_filter.mp he
      exact ⟨e, he, rfl, eq_of_beq haction, href, hkind⟩

/-- **A change in which an ambiguous reference is refused.** -/
theorem ChangeTakes.refused {v : Value}
    (htakes : ChangeTakes ⟨upcomingOf changes, index, accessors⟩ Told c e)
    (haction : c.action ≠ .delete) (hkind : targetKind? field = none)
    (hv : c.fields.get? field = some v) (hr : v.Holds none r)
    (h : (Surroundings.mk (upcomingOf changes) index accessors).isAmbiguous c.id r.target = true) :
    ⟨c.id, field, r.target, none, ambiguousReason⟩ ∈ e.report.faults
      ∧ Refused changes c (e.onChange c) field r := by
  have hwaits := htakes.waitsAsNamed
  obtain ⟨before, mid, behind, rfl, hmid, hbefore, hbehind, -⟩ := htakes.exists_split haction hv
  obtain ⟨hwritten, hfault⟩ := hmid.refuses hkind hr h
  refine ⟨List.mem_append_right _ (List.mem_append_left _ hfault), ?_, fun d hd => ?_⟩
  · exact @get?_references_onChange field c before mid behind hbefore.written hbehind none hwritten
  · refine (mem_dependsOn_onChange.mp hd).imp_right fun hawaited => ?_
    exact exists_refers_of_awaited hwaits h hawaited.1

end Resolution

open Resolution in
/-- **References of no known kind are refused exactly where they are ambiguous.** -/
theorem refuses_resolveReferences {p : Provider} (hp : p.Serves) (state : DesiredState)
    (accessors : Accessors Declaration) (changes : List Change) (session : Session) :
    ∃ tally changes' session',
      resolveReferences p state.index accessors changes session = (.ok tally, changes', session')
      ∧ ∀ (i : Nat) (c : Change) (field : String) (v : Value) (r : Reference),
        changes[i]? = some c → c.action ≠ .delete → targetKind? field = none →
        c.fields.get? field = some v → v.Holds none r →
        ∃ c', changes'[i]? = some c'
          ∧ (⟨c.id, field, r.target, none, ambiguousReason⟩ ∈ tally.faults
            ↔ Ambiguous state changes c.id r.target)
          ∧ (Ambiguous state changes c.id r.target → Refused changes c c' field r) := by
  obtain ⟨tally, changes', session', hrun⟩ :=
    exists_resolveReferences_eq_ok hp state.index accessors changes session
  obtain ⟨effects, htakes, rfl, rfl, -⟩ := exists_effects_of_resolveReferences hrun
  refine ⟨_, _, session', hrun, fun i c field v r hc haction hkind hv hr => ?_⟩
  obtain ⟨e, he, htake⟩ := exists_right_of_forall₂ htakes hc
  refine ⟨e.onChange c, by rw [List.getElem?_zipWith, hc, he], ⟨fun hfault => ?_, fun h => ?_⟩,
    fun h => (htake.refused haction hkind hv hr (isAmbiguous_iff.mpr h)).2⟩
  · rw [Effect.faults_sum] at hfault
    obtain ⟨e', he', hfault⟩ := List.mem_flatMap.mp hfault
    obtain ⟨_, -, htake'⟩ := exists_left_of_mem htakes he'
    exact isAmbiguous_iff.mp (htake'.truthful _ hfault rfl rfl)
  · rw [Effect.faults_sum]
    exact List.mem_flatMap.mpr ⟨e, List.mem_of_getElem? he,
      (htake.refused haction hkind hv hr (isAmbiguous_iff.mpr h)).1⟩

/-- A document that names what is shared, without saying of which kind. -/
def sharedBatch : List Change := [
  { id := "1:c:api:shared", kind := "api", ref := "shared", action := .create },
  { id := "2:c:api_document:guide", kind := "api_document", ref := "guide", action := .create
    fields := Dict.ofList [("target", .reference (.toId "shared"))] }]

/-- A portal and a team are declared under one name. -/
def sharedDeclarations : DesiredState where
  resources := [{ kind := "portal", ref := "shared", name := "Developers" },
    { kind := "team", ref := "shared", name := "Core" }]

theorem refuses_sharedDeclarations : (Provider.ofSnapshot {}).Serves
    ∧ ∃ tally changes' session',
      resolveReferences (.ofSnapshot {}) sharedDeclarations.index standardAccessors sharedBatch {}
        = (.ok tally, changes', session')
      ∧ ∃ c', changes'[1]? = some c'
        ∧ ⟨"2:c:api_document:guide", "target", "shared", none, ambiguousReason⟩ ∈ tally.faults
        ∧ ∀ c, sharedBatch[1]? = some c → Refused sharedBatch c c' "target" (.toId "shared") := by
  have hp := serves_ofSnapshot {}
  obtain ⟨tally, changes', session', hrun, hrefuses⟩ :=
    refuses_resolveReferences hp sharedDeclarations standardAccessors sharedBatch {}
  obtain ⟨c', hc', hfault, hrefused⟩ := hrefuses 1 _ "target" (.reference (.toId "shared"))
    (.toId "shared") rfl (by decide) (by decide) rfl (.scalar rfl)
  have hambiguous : Ambiguous sharedDeclarations sharedBatch "2:c:api_document:guide" "shared" :=
    .inr ⟨"portal", by decide, "team", by decide, by decide⟩
  refine ⟨hp, tally, changes', session', hrun, c', hc', hfault.mpr hambiguous, fun c hc => ?_⟩
  obtain rfl := Option.some.inj hc
  exact hrefused hambiguous

/-- A portal is declared under the name of an api that the batch creates. -/
def sharedPortal : DesiredState where
  resources := [{ kind := "portal", ref := "shared", name := "Developers" }]

/-- **Counted together the kinds would be several**: the batch creates an api and a portal is
declared, and yet the reference is not refused.  It waits for the api under the name of the
portal. -/
theorem not_refused_sharedPortal :
    SeveralKinds (createdKinds sharedBatch "2:c:api_document:guide" "shared"
      ++ sharedPortal.kindsOf "shared")
    ∧ ∃ tally changes' session' c', resolveReferences (.ofSnapshot {}) sharedPortal.index
        standardAccessors sharedBatch {} = (.ok tally, changes', session')
      ∧ tally.faults = [] ∧ changes'[1]? = some c' ∧ c'.dependsOn = ["1:c:api:shared"]
      ∧ c'.references.get? "target" = some
        { target := "shared", id := unknownId, hints := Dict.singleton nameHint "Developers" } :=
  ⟨⟨"api", by decide, "portal", by decide, by decide⟩, _, _, _, _, rfl, rfl, rfl, rfl, rfl⟩

end Reconcile
