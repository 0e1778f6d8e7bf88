import Reconcile.Proofs.Drafting.Outcomes
import Reconcile.Proofs.Resolution.Changes
import Reconcile.Proofs.Resolution.Faultless

/-!
# Proofs/Order/Agreement — resolution writes down what the ordering looks up

Resolution and the ordering look creates of a batch up each in its own way: the first one that is
not the change itself, or the last one, if its kind is known, and else the only one.  Where no two
creates make the same resource they find the same, and a batch that was resolved without faults
lists whatever it waits for (`ListsDependencies`).  Main fact:
`listsDependencies_of_resolveReferences`.  With nothing but the listed dependencies such a batch
runs in the same order (`executionOrder_withoutLinks`).
-/

namespace Reconcile

/-! ## Dependencies that are listed -/

/-- The change as its listed dependencies alone have it: without references and without a parent. -/
def Change.withoutLinks (c : Change) : Change := { c with references := ∅, parent := none }

/-- **A batch lists its dependencies**: each create and update lists every other change that it
waits for; and if no delete has a parent without an identifier, the batch has the order, or the
failure, that the lists alone give. -/
structure ListsDependencies (changes : List Change) : Prop where
  listed : ∀ i c, changes[i]? = some c → c.action ≠ .delete →
    ∀ j ∈ implicitPlaces changes c, j ≠ i → ∃ d, changes[j]? = some d ∧ d.id ∈ c.dependsOn
  order : (∀ c ∈ changes, c.action = .delete → ∀ p, c.parent = some p → p.id ≠ none) →
    executionOrder (changes.map Change.withoutLinks) = executionOrder changes

section WithoutLinks

variable {changes : List Change}

theorem idAt_withoutLinks (changes : List Change) :
    idAt (changes.map Change.withoutLinks) = idAt changes := by
  funext i
  simp only [idAt, List.getElem?_map, Option.map_map]
  rfl

theorem danglingDependency?_withoutLinks (changes : List Change) :
    danglingDependency? (changes.map Change.withoutLinks) = danglingDependency? changes := by
  unfold danglingDependency?
  rw [List.findSome?_map, List.map_map]
  rfl

/-- Where the lists say everything, the table of the ordering needs nothing else. -/
theorem dependencyTable_withoutLinks (h : ∀ i c, changes[i]? = some c →
      ∀ j ∈ implicitPlaces changes c, j ≠ i → ∃ d, changes[j]? = some d ∧ d.id ∈ c.dependsOn) :
    dependencyTable (changes.map Change.withoutLinks) = dependencyTable changes := by
  refine dependencyTable_map fun i c j d hc hd hne => ?_
  have hnone : implicitPlaces (changes.map Change.withoutLinks) c.withoutLinks = [] := rfl
  have himplicit : j ∈ implicitPlaces changes c → d.id ∈ c.dependsOn := by
    intro hmem
    obtain ⟨d', hd', hlisted⟩ := h i c hc j hmem hne
    obtain rfl := Option.some.inj (hd.symm.trans hd')
    exact hlisted
  rw [hnone, or_iff_left List.not_mem_nil]
  exact ⟨Or.inl, fun hor => hor.elim id himplicit⟩

/-- **Where the lists say everything, they alone give the order**, or the failure. -/
theorem executionOrder_withoutLinks (h : ∀ i c, changes[i]? = some c →
      ∀ j ∈ implicitPlaces changes c, j ≠ i → ∃ d, changes[j]? = some d ∧ d.id ∈ c.dependsOn) :
    executionOrder (changes.map Change.withoutLinks) = executionOrder changes := by
  have hids : (changes.map Change.withoutLinks).map (·.id) = changes.map (·.id) := by
    rw [List.map_map]
    rfl
  unfold executionOrder cycleFault
  rw [hids, danglingDependency?_withoutLinks, dependencyTable_withoutLinks h, idAt_withoutLinks,
    List.length_map]

end WithoutLinks

/-! ## What resolution lists -/

/-- The value that a reference of a change has, asked for in a session.  In the last session of a run
without faults it is the value that the run found (`Surroundings.resolve_eq_find`). -/
def Surroundings.value? (s : Surroundings) (p : Provider) (session : Session) (changeId : String)
    (kind : Option String) (r : Reference) : Option String :=
  match (s.resolve p changeId kind r session).1 with
  | .ok (.known value _) => some value
  | _ => none

namespace Resolution

variable {s : Surroundings} {look : Look} {changes : List Change} {c : Change}
  {kind : Option String} {ref : String}

/-- What a change lacks behind its resolution is backed. -/
theorem backs_of_lacks (haction : c.action ≠ .delete) (hempty : c.references = ∅)
    (hreliable : s.Reliable look c) (hfaults : (effectOf s look c).report.faults = [])
    (hlacks : ((effectOf s look c).onChange c).Lacks kind ref) :
    ((effectOf s look c).onChange c).Backs s.upcoming kind ref := by
  rcases hlacks with ⟨hfield, hid⟩ | ⟨hfield, htarget, hid⟩ | ⟨hparent, hid⟩
  · exact (backed_of_references hempty hreliable hfield).scalar hid
  · exact (backed_of_references hempty hreliable hfield).item _ _ htarget hid
  · exact backs_of_parent haction hreliable hfaults hparent hid

/-- What is a reference in a field is no identifier of the remote side. -/
theorem remoteId_eq_none {item : Value} {r : Reference} (hr : referenceIn? kind item = some r) :
    item.text?.filter looksLikeRemoteId = none := by
  cases item with
  | text t =>
    simp only [referenceIn?] at hr
    split at hr
    · next hname =>
      simp only [isNameOf, Bool.and_eq_true, Bool.not_eq_true'] at hname
      simp [Value.text?, Option.filter, hname.2]
    · exact absurd hr (by simp)
  | _ => rfl

/-- A field with a reference asks for what the reference asks for. -/
theorem lookUps_fieldEffect_of_referenceIn? {changeId field : String} {v : Value} {r : Reference}
    (hr : referenceIn? (targetKind? field) v = some r) :
    (fieldEffect s look changeId field v).lookUps
      = (s.examine changeId (targetKind? field) r).lookUps := by
  rw [fieldEffect_of_referenceIn? s look changeId field hr]
  simp [scalarEffect]

/-- A list with a reference asks, among other things, for what the reference asks for. -/
theorem lookUps_examine_subset_fieldEffect {changeId field : String} {items : List Value}
    {item : Value} (hitem : item ∈ items) {r : Reference}
    (hr : referenceIn? (targetKind? field) item = some r) :
    (s.examine changeId (targetKind? field) r).lookUps
      ⊆ (fieldEffect s look changeId field (.list items)).lookUps := by
  have hholds : holdsReference field (.list items) = true :=
    List.any_eq_true.mpr ⟨item, hitem, by rw [hr]; rfl⟩
  have heffect : (itemEffect s look changeId field item).lookUps
      = (s.examine changeId (targetKind? field) r).lookUps := by
    unfold itemEffect
    rw [remoteId_eq_none hr]
    simp only [hr, lookUps_referenceEffect]
  rw [← heffect, fieldEffect, if_pos hholds]
  intro k hk
  refine List.mem_append_left _ ?_
  rw [Effect.lookUps_sum, List.flatMap_map]
  exact List.mem_flatMap.mpr ⟨item, hitem, hk⟩

/-- The kinds that a reference of a change asks for are among those of the batch. -/
theorem lookUps_examine_subset (hc : c ∈ changes) (haction : c.action ≠ .delete) {r : Reference}
    (hr : c.Refers kind r) :
    (s.examine c.id kind r).lookUps ⊆ (batchEffect s look changes).lookUps := by
  have hchange : (fieldsEffect s look c.id c.fields.entries
      ++ parentEffect s look c.id c.parent).lookUps ⊆ (batchEffect s look changes).lookUps := by
    intro k hk
    rw [batchEffect, Effect.lookUps_sum, List.flatMap_map]
    refine List.mem_flatMap.mpr ⟨c, hc, ?_⟩
    rwa [effectOf, if_neg haction]
  have hfields : ∀ {field : String} {v : Value}, c.fields.get? field = some v →
      (fieldEffect s look c.id field v).lookUps ⊆ (batchEffect s look changes).lookUps := by
    intro field v hv k hk
    refine hchange (List.mem_append_left _ ?_)
    rw [fieldsEffect, Effect.lookUps_sum, List.flatMap_map]
    exact List.mem_flatMap.mpr ⟨_, Dict.mem_entries_iff.mpr hv, hk⟩
  rcases hr with ⟨hv, hr⟩ | ⟨hv, hitem, hr⟩ | ⟨hparent, hid⟩
  · have hfield := hfields hv
    rwa [lookUps_fieldEffect_of_referenceIn? hr] at hfield
  · exact List.Subset.trans (lookUps_examine_subset_fieldEffect hitem hr) (hfields hv)
  · next p =>
    obtain ⟨pkind, pref, pid⟩ := p
    obtain rfl : pid = none := hid
    refine List.Subset.trans ?_ (List.Subset.trans (List.subset_append_right _ _) hchange)
    rw [hparent, lookUps_parentEffect_some]
    exact List.Subset.refl _

/-- **In a run without faults what is found can be relied on**, if no value is the text
`[unknown]`. -/
theorem reliable_of_faultless {p : Provider} {session : Session}
    (hremembered : ∀ k ∈ (batchEffect s look changes).lookUps,
      ∃ rs, session.wildcardListing? k = some rs) (hc : c ∈ changes) (haction : c.action ≠ .delete)
    (hunknown : ∀ kind r, c.Refers kind r → s.value? p session c.id kind r ≠ some unknownId) :
    s.Reliable session.look c := by
  intro kind r hr
  refine Surroundings.sound_find fun name hfind => hunknown kind r hr ?_
  have hresolve : s.resolve p c.id kind r session
      = (.ok (s.find session.look c.id kind r), session) :=
    Surroundings.resolve_eq_find fun k hk =>
      hremembered k (lookUps_examine_subset hc haction hr hk)
  rw [Surroundings.value?, hresolve, hfind]

end Resolution

/-- No two creates of a batch make the same resource. -/
def CreatesOnce (changes : List Change) : Prop :=
  ((changes.filter fun c => c.action == .create).map fun c => (c.kind, c.ref)).Nodup

/-- Changes that do the same create each resource as often. -/
theorem CreatesOnce.map {changes : List Change} (h : CreatesOnce changes) {f : Change → Change}
    (hcore : ∀ c, (f c).core = c.core) : CreatesOnce (changes.map f) := by
  have hparts : ∀ c, (f c).action = c.action ∧ ((f c).kind, (f c).ref) = (c.kind, c.ref) :=
    fun c => ⟨(Change.parts_of_core_eq (hcore c)).1, (Change.parts_of_core_eq (hcore c)).2.1⟩
  unfold CreatesOnce at h ⊢
  rw [List.filter_map, List.map_map]
  simpa only [Function.comp_def, hparts] using h

/-- Two creates that make the same resource are at one place. -/
theorem CreatesOnce.eq {changes : List Change} (h : CreatesOnce changes) {kind ref : String}
    {i j : Nat} (hi : CreatesAt changes (some kind) ref i)
    (hj : CreatesAt changes (some kind) ref j) : i = j := by
  have hpairs : changes.Pairwise fun c d => c.action = .create → d.action = .create →
      (c.kind, c.ref) ≠ (d.kind, d.ref) := by
    simpa only [CreatesOnce, List.Nodup, List.pairwise_map, List.pairwise_filter, beq_iff_eq] using h
  have hlt : ∀ {i j}, CreatesAt changes (some kind) ref i → CreatesAt changes (some kind) ref j →
      ¬i < j := by
    rintro i j ⟨c, hc, hcreate, rfl, hkind⟩ ⟨d, hd, hdcreate, href, hdkind⟩ hij
    obtain ⟨hilt, rfl⟩ := List.getElem?_eq_some_iff.mp hc
    obtain ⟨hjlt, rfl⟩ := List.getElem?_eq_some_iff.mp hd
    refine List.pairwise_iff_getElem.mp hpairs i j hilt hjlt hij hcreate hdcreate ?_
    rw [hkind kind rfl, hdkind kind rfl, href]
  have hij := hlt hi hj
  have hji := hlt hj hi
  omega

/-- **Where no two creates make the same resource, there is no other create than the one that is
awaited.** -/
theorem CreatesOnce.eq_of_awaits {changes : List Change} (h : CreatesOnce changes)
    {kind : Option String} {ref : String} {i j : Nat} (hj : Awaits changes kind ref j)
    (hi : CreatesAt changes kind ref i) : i = j := by
  rcases kind with _ | kind
  · exact (hj.2 i hi).1 rfl
  · exact h.eq hi hj.1

namespace Resolution

variable {s : Surroundings} {look : Look} {changes : List Change}

/-- **Each change of a resolved batch lists what it waits for.** -/
theorem listed_of_reliable (hs : s.upcoming = upcomingOf changes) (honce : CreatesOnce changes)
    {c : Change} (haction : c.action ≠ .delete) (hempty : c.references = ∅)
    (hreliable : s.Reliable look c) (hfaults : (effectOf s look c).report.faults = []) {j : Nat}
    (hj : j ∈ implicitPlaces (changes.map fun c => (effectOf s look c).onChange c)
      ((effectOf s look c).onChange c)) :
    ∃ d, (changes.map fun c => (effectOf s look c).onChange c)[j]? = some d
      ∧ d.id ∈ ((effectOf s look c).onChange c).dependsOn := by
  obtain ⟨kind, ref, hlacks, hawaits⟩ := mem_implicitPlaces.mp hj
  obtain ⟨u, hu, href, hkind, hlisted⟩ :=
    backs_of_lacks haction hempty hreliable hfaults hlacks
  rw [hs] at hu
  obtain ⟨e, he, rfl⟩ := List.mem_map.mp hu
  obtain ⟨he, hcreate⟩ := List.mem_filter.mp he
  obtain ⟨k, hk⟩ := List.mem_iff_getElem?.mp he
  have hcore := (extends_onChange (effectOf s look e) e).core
  have hplace : (changes.map fun c => (effectOf s look c).onChange c)[k]?
      = some ((effectOf s look e).onChange e) := by rw [List.getElem?_map, hk, Option.map_some]
  have hcreates : CreatesAt (changes.map fun c => (effectOf s look c).onChange c) kind ref k := by
    refine ⟨_, hplace, ?_, ?_, fun kind' hkind' => ?_⟩
    · exact (congrArg Change.action hcore).trans (eq_of_beq hcreate)
    · exact (congrArg Change.ref hcore).trans href
    · exact (congrArg Change.kind hcore).trans (hkind kind' hkind')
  have hmapped := honce.map fun c => (extends_onChange (effectOf s look c) c).core
  obtain rfl : k = j := hmapped.eq_of_awaits hawaits hcreates
  exact ⟨_, hplace, by rwa [Effect.id_onChange]⟩

/-- A change that knows of no references, and of no parent without an identifier, waits for
nothing. -/
theorem implicitPlaces_eq_nil {c : Change} (hempty : c.references = ∅)
    (hparent : ∀ p, c.parent = some p → p.id ≠ none) : implicitPlaces changes c = [] := by
  refine List.eq_nil_iff_forall_not_mem.mpr fun j hj => ?_
  obtain ⟨kind, ref, ⟨hfield, -⟩ | ⟨hfield, -, -⟩ | ⟨hp, hid⟩, -⟩ := mem_implicitPlaces.mp hj
  · rw [hempty] at hfield
    exact absurd hfield (by simp [EmptyCollection.emptyCollection])
  · rw [hempty] at hfield
    exact absurd hfield (by simp [EmptyCollection.emptyCollection])
  · exact hparent _ hp hid

end Resolution

open Resolution in
/-- **Resolution lists the dependencies of a batch.**  Where the changes know of no references yet
and no two creates make the same resource, a run without faults, and without a value that is the
text `[unknown]`, lists whatever the ordering would look up. -/
theorem listsDependencies_of_resolveReferences {p : Provider} {index : DeclaredIndex}
    {accessors : Accessors Declaration} {changes changes' : List Change}
    {session session' : Session} {tally : Tally} (hempty : ∀ c ∈ changes, c.references = ∅)
    (honce : CreatesOnce changes)
    (hrun : resolveReferences p index accessors changes session = (.ok tally, changes', session'))
    (hnil : tally.faults = [])
    (hunknown : ∀ c ∈ changes, c.action ≠ .delete → ∀ kind r, c.Refers kind r →
      (Surroundings.mk (upcomingOf changes) index accessors).value? p session' c.id kind r
        ≠ some unknownId) :
    ListsDependencies changes' := by
  let s : Surroundings := ⟨upcomingOf changes, index, accessors⟩
  obtain ⟨htally, hchanges, hremembered⟩ := resolveReferences_eq_of_faultless (s := s) rfl hrun hnil
  rw [htally] at hnil
  subst hchanges
  have hlisted : ∀ c ∈ changes, c.action ≠ .delete → ∀ j ∈ implicitPlaces
      (changes.map fun c => (effectOf s session'.look c).onChange c)
        ((effectOf s session'.look c).onChange c),
      ∃ d, (changes.map fun c => (effectOf s session'.look c).onChange c)[j]? = some d
        ∧ d.id ∈ ((effectOf s session'.look c).onChange c).dependsOn := by
    intro c hc haction j hj
    exact listed_of_reliable rfl honce haction (hempty c hc)
      (reliable_of_faultless hremembered hc haction (hunknown c hc haction))
      (faults_effectOf_of_batch hnil hc) hj
  constructor
  · intro i b hb haction j hj _
    obtain ⟨c, hc, rfl⟩ := List.mem_map.mp (List.mem_of_getElem? hb)
    rw [(extends_onChange _ c).action] at haction
    exact hlisted c hc haction j hj
  · intro hdeletes
    refine executionOrder_withoutLinks fun i b hb j hj _ => ?_
    have hmem := List.mem_of_getElem? hb
    obtain ⟨c, hc, rfl⟩ := List.mem_map.mp hmem
    by_cases haction : c.action = .delete
    · have hnone : effectOf s session'.look c = {} := if_pos haction
      have hparent := hdeletes _ hmem ((extends_onChange _ c).action.trans haction)
      rw [hnone, Effect.onChange_nil] at hj hparent
      rw [implicitPlaces_eq_nil (hempty c hc) hparent] at hj
      exact absurd hj List.not_mem_nil
    · exact hlisted c hc haction j hj

/-! ## A batch with references of every sort -/

/-- The references of a change, with the kinds that they point at. -/
def Change.referred (c : Change) : List (Option String × Reference) :=
  (c.fields.entries.flatMap fun e =>
    (match e.2 with
      | .list items => items
      | v => [v]).filterMap fun v =>
        (referenceIn? (targetKind? e.1) v).map fun r => (targetKind? e.1, r))
    ++ match c.parent with
      | some ⟨kind, ref, none⟩ => [(some kind, .toId ref)]
      | _ => []

theorem mem_referred {c : Change} {kind : Option String} {r : Reference} (h : c.Refers kind r) :
    (kind, r) ∈ c.referred := by
  rcases h with ⟨hv, hr⟩ | ⟨hv, hitem, hr⟩ | ⟨hparent, hid⟩
  · refine List.mem_append_left _ (List.mem_flatMap.mpr ⟨_, Dict.mem_entries_iff.mpr hv, ?_⟩)
    split
    · next items hlist =>
      obtain rfl : _ = Value.list items := hlist
      exact absurd hr (by simp [referenceIn?])
    · exact List.mem_filterMap.mpr ⟨_, List.mem_singleton_self _, by rw [hr]; rfl⟩
  · refine List.mem_append_left _ (List.mem_flatMap.mpr ⟨_, Dict.mem_entries_iff.mpr hv, ?_⟩)
    exact List.mem_filterMap.mpr ⟨_, hitem, by rw [hr]; rfl⟩
  · next p =>
    obtain ⟨kind, ref, id⟩ := p
    obtain rfl : id = none := hid
    refine List.mem_append_right _ ?_
    rw [hparent]
    exact List.mem_singleton_self _

/-- A portal with its publication: the portal and the team by kind, the logo by its reference alone,
the strategies in a list, and the api as the parent. -/
def portalBatch : List Change := [
  { id := "1:c:api_publication:docs", kind := "api_publication", ref := "docs", action := .create
    fields := Dict.ofList [("portal_id", .text "dev"), ("team_id", .text "ops"),
      ("logo", .reference (.toId "brand")),
      ("auth_strategy_ids", .list [.text "keys", .text "tokens"])]
    parent := some { kind := "api", ref := "shop" } },
  { id := "2:c:asset:brand", kind := "asset", ref := "brand", action := .create },
  { id := "3:c:portal:dev", kind := "portal", ref := "dev", action := .create
    fields := Dict.ofList [("default_application_auth_strategy_id", .text "keys")] },
  { id := "4:c:api:shop", kind := "api", ref := "shop", action := .create },
  { id := "5:c:application_auth_strategy:keys", kind := "application_auth_strategy", ref := "keys"
    action := .create },
  { id := "6:d:team:old", kind := "team", ref := "old", action := .delete }]

/-- What exists already. -/
def portalRemote : Snapshot where
  resources := [
    { id := "t1", kind := "team", name := "ops", labels := managementLabels "default" false },
    { id := "s1", kind := "application_auth_strategy", name := "tokens"
      labels := managementLabels "default" false }]

/-- The resolution of the batch. -/
def portalRun : Except StateFault Tally × List Change × Session :=
  resolveReferences (.ofSnapshot portalRemote) .none standardAccessors portalBatch {}

theorem listsDependencies_portalBatch : (∀ c ∈ portalBatch, c.references = ∅)
    ∧ CreatesOnce portalBatch ∧ ∃ tally, portalRun.1 = .ok tally ∧ tally.faults = []
      ∧ (∀ c ∈ portalBatch, c.action ≠ .delete → ∀ kind r, c.Refers kind r →
        (Surroundings.mk (upcomingOf portalBatch) .none standardAccessors).value?
          (.ofSnapshot portalRemote) portalRun.2.2 c.id kind r ≠ some unknownId)
      ∧ ListsDependencies portalRun.2.1 := by
  have hempty : ∀ c ∈ portalBatch, c.references = ∅ := by decide +kernel
  have honce : CreatesOnce portalBatch := by
    unfold CreatesOnce
    decide +kernel
  obtain ⟨tally, hrun, hnil⟩ : ∃ tally, portalRun.1 = .ok tally ∧ tally.faults = [] := by
    have hdone : portalRun.1.toOption.map Tally.faults = some [] := by decide +kernel
    rcases hrun : portalRun.1 with e | tally <;> rw [hrun] at hdone
    · exact absurd hdone (by simp [Except.toOption])
    · exact ⟨tally, rfl, Option.some.inj hdone⟩
  have hvalues : ∀ c ∈ portalBatch, ∀ x ∈ c.referred,
      (Surroundings.mk (upcomingOf portalBatch) .none standardAccessors).value?
        (.ofSnapshot portalRemote) portalRun.2.2 c.id x.1 x.2 ≠ some unknownId := by
    decide +kernel
  have hunknown : ∀ c ∈ portalBatch, c.action ≠ .delete → ∀ kind r, c.Refers kind r →
      (Surroundings.mk (upcomingOf portalBatch) .none standardAccessors).value?
        (.ofSnapshot portalRemote) portalRun.2.2 c.id kind r ≠ some unknownId :=
    fun c hc _ kind r hr => hvalues c hc _ (mem_referred hr)
  have hresult : portalRun = (.ok tally, portalRun.2.1, portalRun.2.2) := by rw [← hrun]
  exact ⟨hempty, honce, tally, hrun, hnil, hunknown,
    listsDependencies_of_resolveReferences hempty honce hresult hnil hunknown⟩

end Reconcile
