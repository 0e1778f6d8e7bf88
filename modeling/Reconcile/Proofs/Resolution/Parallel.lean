import Reconcile.Proofs.Resolution.Moments
import Reconcile.Proofs.Resolution.Origins

/-!
# Proofs/Resolution/Parallel — a list of references is written down item by item, or not at all

An item becomes something (`ItemBecomes`) or fails (`ItemFails`), and never both.  A list of which
an item fails is reported and nothing is written down for it.  Of every other one the references, the
identifiers and the names that are written down are as long as the list, and what stands at a place
describes the item there (`ResolvedField.Describes`): `keepsParallel_resolveReferences`.
-/

namespace Reconcile

namespace Resolution

variable (s : Surroundings) (look : Look) (changeId field : String)

/-! ## Items -/

/-- **What becomes of an item of a list**: an identifier stands for itself and has no name, and any
other item has what is found for its reference. -/
inductive ItemBecomes : Value → ResolvedItem → Prop
  | spelled {id : String} (hremote : looksLikeRemoteId id = true) :
      ItemBecomes (.text id) ⟨id, id, ""⟩
  | known {item : Value} {r : Reference} {value : String} {name : Option String}
      (hplain : item.isRemoteId = false) (hr : referenceIn? (targetKind? field) item = some r)
      (hfind : s.find look changeId (targetKind? field) r = .known value name) :
      ItemBecomes item ⟨r.target, value, name.getD r.target⟩
  | awaited {item : Value} {r : Reference} {dependency name : String}
      (hplain : item.isRemoteId = false) (hr : referenceIn? (targetKind? field) item = some r)
      (hfind : s.find look changeId (targetKind? field) r = .pending dependency name) :
      ItemBecomes item ⟨r.target, unknownId, name⟩

/-- **An item of a list fails**: it is neither an identifier nor a reference, or it cannot be
resolved. -/
inductive ItemFails : Value → Prop
  | malformed {item : Value} (hplain : item.isRemoteId = false)
      (hr : referenceIn? (targetKind? field) item = none) : ItemFails item
  | missing {item : Value} {r : Reference} {kind : Option String} {reason : String}
      (hplain : item.isRemoteId = false) (hr : referenceIn? (targetKind? field) item = some r)
      (hfind : s.find look changeId (targetKind? field) r = .missing kind reason) : ItemFails item

variable {s look changeId field} {item : Value}

theorem ItemBecomes.itemOf?_eq {x : ResolvedItem} (h : ItemBecomes s look changeId field item x) :
    itemOf? s look changeId field item = some x := by
  cases h with
  | spelled hremote => simp [itemOf?, Value.text?, Option.filter, hremote]
  | known hplain hr hfind =>
    simp [itemOf?, Value.filter_text?_of_isRemoteId_eq_false hplain, hr, hfind, Finding.item?]
  | awaited hplain hr hfind =>
    simp [itemOf?, Value.filter_text?_of_isRemoteId_eq_false hplain, hr, hfind, Finding.item?]

theorem ItemFails.itemOf?_eq (h : ItemFails s look changeId field item) :
    itemOf? s look changeId field item = none := by
  cases h with
  | malformed hplain hr =>
    simp [itemOf?, Value.filter_text?_of_isRemoteId_eq_false hplain, hr]
  | missing hplain hr hfind =>
    simp [itemOf?, Value.filter_text?_of_isRemoteId_eq_false hplain, hr, hfind, Finding.item?]

/-- **Every item becomes something or fails.** -/
theorem itemBecomes_or_itemFails (s : Surroundings) (look : Look) (changeId field : String)
    (item : Value) : (∃ x, ItemBecomes s look changeId field item x)
      ∨ ItemFails s look changeId field item := by
  rcases hplain : item.isRemoteId with _ | _
  · rcases hr : referenceIn? (targetKind? field) item with _ | r
    · exact .inr (.malformed hplain hr)
    · rcases hfind : s.find look changeId (targetKind? field) r with ⟨value, name⟩
        | ⟨dependency, name⟩ | ⟨kind, reason⟩
      · exact .inl ⟨_, .known hplain hr hfind⟩
      · exact .inl ⟨_, .awaited hplain hr hfind⟩
      · exact .inr (.missing hplain hr hfind)
  · obtain ⟨id, rfl, hremote⟩ := Value.isRemoteId_iff.mp hplain
    exact .inl ⟨_, .spelled hremote⟩

theorem itemOf?_eq_some_iff {x : ResolvedItem} :
    itemOf? s look changeId field item = some x ↔ ItemBecomes s look changeId field item x := by
  refine ⟨fun hx => ?_, ItemBecomes.itemOf?_eq⟩
  obtain ⟨x', hbecomes⟩ | hfails := itemBecomes_or_itemFails s look changeId field item
  · obtain rfl := Option.some.inj (hbecomes.itemOf?_eq.symm.trans hx)
    exact hbecomes
  · exact absurd (hfails.itemOf?_eq.symm.trans hx) (by simp)

theorem itemOf?_eq_none_iff :
    itemOf? s look changeId field item = none ↔ ItemFails s look changeId field item := by
  refine ⟨fun hnone => ?_, ItemFails.itemOf?_eq⟩
  obtain ⟨x, hbecomes⟩ | hfails := itemBecomes_or_itemFails s look changeId field item
  · exact absurd (hbecomes.itemOf?_eq.symm.trans hnone) (by simp)
  · exact hfails

/-- **An item that fails is reported.** -/
theorem ItemFails.exists_fault (h : ItemFails s look changeId field item) :
    ∃ f ∈ (itemEffect s look changeId field item).report.faults,
      f.changeId = changeId ∧ f.field = field := by
  have hne : (itemEffect s look changeId field item).report.faults ≠ [] := by
    cases h with
    | malformed hplain hr =>
      simp [itemEffect, Value.filter_text?_of_isRemoteId_eq_false hplain, hr, Tally.addFault]
    | missing hplain hr hfind =>
      simp [itemEffect, Value.filter_text?_of_isRemoteId_eq_false hplain, hr, referenceEffect,
        hfind, Finding.noted, Tally.addFault, Tally.append_eq]
  obtain ⟨f, hf⟩ := List.exists_mem_of_ne_nil _ hne
  exact ⟨f, hf, (within_itemEffect item).faults f hf⟩

/-! ## Lists -/

theorem recorded?_eq_none_iff {found : List (Option ResolvedItem)} (hne : found ≠ []) :
    recorded? found = none ↔ none ∈ found := by
  rw [← mapM_id_eq_none_iff, recorded?]
  rcases hall : found.mapM id with _ | resolved
  · simp
  · have hfound := eq_map_some_of_mapM_id hall
    have hresolved : resolved.isEmpty = false := by
      rcases resolved with _ | _
      · exact absurd hfound hne
      · rfl
    simp [hresolved]

theorem exists_of_recorded? {found : List (Option ResolvedItem)} {f : ResolvedField}
    (h : recorded? found = some f) :
    ∃ resolved, found = resolved.map some ∧ f = listField resolved := by
  unfold recorded? at h
  rcases hall : found.mapM id with _ | resolved <;> simp only [hall] at h
  · exact absurd h (by simp)
  · split at h
    · exact absurd h (by simp)
    · exact ⟨resolved, eq_map_some_of_mapM_id hall, (Option.some.inj h).symm⟩

/-- What the items of a list became, one by one. -/
theorem forall₂_itemBecomes {told : List (Value × Look)} {resolved : List ResolvedItem}
    (h : (told.map fun x => itemOf? s x.2 changeId field x.1) = resolved.map some) :
    List.Forall₂ (fun x y => ItemBecomes s x.2 changeId field x.1 y) told resolved := by
  have hsame : List.Forall₂ (· = ·) (told.map fun x => itemOf? s x.2 changeId field x.1)
      (resolved.map some) := h ▸ List.forall₂_refl _
  rw [List.forall₂_map_left_iff, List.forall₂_map_right_iff] at hsame
  exact hsame.imp fun _ _ => itemOf?_eq_some_iff.mp

end Resolution

/-! ## What is written down for a list -/

open Resolution in
/-- **What is written down for a list describes its items**: the references and the identifiers, and
the names if there are any, are as long as the list, and what stands at a place is what the item
there became.  Without names every item has an empty one. -/
structure ResolvedField.Describes (f : ResolvedField) (s : Surroundings) (changeId field : String)
    (told : List (Value × Look)) : Prop where
  isList : f.isList = true
  targets : f.targets.length = told.length
  ids : f.ids.length = told.length
  names : f.hintLists = ∅
    ∨ ∃ names, f.hintLists = Dict.singleton namesHint names ∧ names.length = told.length
  item : ∀ (i : Nat) item look, told[i]? = some (item, look) → ∃ x,
    ItemBecomes s look changeId field item x ∧ f.targets[i]? = some x.target
      ∧ f.ids[i]? = some x.id ∧ (f.hintLists = ∅ → x.name = "")
      ∧ ∀ names, f.hintLists = Dict.singleton namesHint names → names[i]? = some x.name

namespace Resolution

/-- Hints are written down where an item has a name. -/
theorem hintLists_cases (resolved : List ResolvedItem) :
    ((listField resolved).hintLists = ∅ ∧ ∀ x ∈ resolved, x.name = "")
    ∨ (listField resolved).hintLists = Dict.singleton namesHint (resolved.map (·.name)) := by
  unfold listField
  dsimp only
  split
  · exact .inr rfl
  · next hnone => exact .inl ⟨rfl, by simpa using hnone⟩

theorem describes_listField {told : List (Value × Look)} {resolved : List ResolvedItem}
    (h : List.Forall₂ (fun x y => ItemBecomes s x.2 changeId field x.1 y) told resolved) :
    (listField resolved).Describes s changeId field told where
  isList := rfl
  targets := (List.length_map _).trans h.length_eq.symm
  ids := (List.length_map _).trans h.length_eq.symm
  names := by
    obtain ⟨hnone, -⟩ | hnames := hintLists_cases resolved
    · exact .inl hnone
    · exact .inr ⟨_, hnames, (List.length_map _).trans h.length_eq.symm⟩
  item i item look hi := by
    obtain ⟨x, hx, hbecomes⟩ := exists_right_of_forall₂ h hi
    refine ⟨x, hbecomes, by simp [listField, hx], by simp [listField, hx], ?_⟩
    obtain ⟨hnone, hempty⟩ | hnames := hintLists_cases resolved
    · refine ⟨fun _ => hempty x (List.mem_of_getElem? hx), fun names hnames => ?_⟩
      exact absurd (hnames.symm.trans hnone) (Dict.singleton_ne_empty _ _)
    · refine ⟨fun hnone => ?_, fun names hnames' => ?_⟩
      · exact absurd (hnames.symm.trans hnone) (Dict.singleton_ne_empty _ _)
      · obtain rfl := Dict.singleton_injective namesHint (hnames.symm.trans hnames')
        rw [List.getElem?_map, hx, Option.map_some]

/-! ## Lists in a change -/

theorem written_toldEffect (s : Surroundings) (changeId field : String)
    (told : List (Value × Look)) : (toldEffect s changeId field told).written
      = ((recorded? (told.map fun x => itemOf? s x.2 changeId field x.1)).map
        fun known => (field, known)).toList := by
  simp [toldEffect, List.flatMap_map, written_itemEffect]

/-- **A list that holds references is written down item by item, or not at all**: nothing exactly
if an item fails, and that is reported. -/
structure KeepsParallel (s : Surroundings) (changeId field : String) (told : List (Value × Look))
    (t : Tally) (written : Option ResolvedField) : Prop where
  unwritten : written = none ↔ ∃ x ∈ told, ItemFails s x.2 changeId field x.1
  reported : written = none → ∃ f ∈ t.faults, f.changeId = changeId ∧ f.field = field
  describes : ∀ f, written = some f → f.Describes s changeId field told

variable {Told : List String → Look → Prop} {c : Change} {e : Effect} {items : List Value}

/-- **What a list field takes keeps it parallel.** -/
theorem keepsParallel_toldEffect {told : List (Value × Look)} (hne : told ≠ []) {t : Tally}
    (hfaults : (toldEffect s changeId field told).report.faults ⊆ t.faults) :
    KeepsParallel s changeId field told t
      (recorded? (told.map fun x => itemOf? s x.2 changeId field x.1)) := by
  have hunwritten : recorded? (told.map fun x => itemOf? s x.2 changeId field x.1) = none
      ↔ ∃ x ∈ told, ItemFails s x.2 changeId field x.1 := by
    rw [recorded?_eq_none_iff (by simpa using hne), List.mem_map]
    simp only [itemOf?_eq_none_iff]
  refine ⟨hunwritten, fun hnone => ?_, fun f hf => ?_⟩
  · obtain ⟨x, hx, hfails⟩ := hunwritten.mp hnone
    obtain ⟨f, hf, hnames⟩ := hfails.exists_fault
    refine ⟨f, hfaults (List.mem_append_left _ ?_), hnames⟩
    rw [Effect.faults_sum, List.flatMap_map]
    exact List.mem_flatMap.mpr ⟨x, hx, hf⟩
  · obtain ⟨resolved, hresolved, rfl⟩ := exists_of_recorded? hf
    exact describes_listField (forall₂_itemBecomes hresolved)

/-- **A list field of a change is kept parallel**, if nothing was written down for it before. -/
theorem ChangeTakes.keepsParallel (h : ChangeTakes s Told c e) (haction : c.action ≠ .delete)
    (hitems : c.fields.get? field = some (.list items))
    (hholds : holdsReference field (.list items) = true) (hempty : c.references = ∅) {t : Tally}
    (hfaults : e.report.faults ⊆ t.faults) :
    ∃ told, told.map Prod.fst = items
      ∧ (∀ x ∈ told, Told (itemEffect s x.2 c.id field x.1).lookUps x.2)
      ∧ KeepsParallel s c.id field told t ((e.onChange c).references.get? field) := by
  obtain ⟨before, mid, behind, rfl, hmid, hbefore, hbehind, -⟩ := h.exists_split haction hitems
  cases hmid with
  | idle hidle => exact absurd (hholds.symm.trans hidle) (by simp)
  | scalar hr => exact absurd hr (by simp [referenceIn?])
  | @list told _ htold =>
    have hne : told ≠ [] := by
      rintro rfl
      exact absurd hholds (by simp [holdsReference])
    have hreferences := get?_references_onChange (c := c) hbefore.written hbehind
      (written_toldEffect s c.id field told)
    rw [hempty] at hreferences
    have hnothing : (∅ : Dict ResolvedField).get? field = none := rfl
    rw [hnothing, Option.or_none] at hreferences
    refine ⟨told, rfl, htold, ?_⟩
    rw [hreferences]
    refine keepsParallel_toldEffect hne fun f hf => hfaults ?_
    exact List.mem_append_right _ (List.mem_append_left _ hf)

end Resolution

open Resolution in
/-- **Lists of references stay parallel, or are not written down.** -/
theorem keepsParallel_resolveReferences {p : Provider} (hp : p.Serves) (index : DeclaredIndex)
    (accessors : Accessors Declaration) {changes : List Change}
    (hempty : ∀ c ∈ changes, c.references = ∅) (session : Session) :
    ∃ tally changes' session',
      resolveReferences p index accessors changes session = (.ok tally, changes', session')
      ∧ ∀ (i : Nat) (c : Change) (field : String) (items : List Value), changes[i]? = some c →
        c.action ≠ .delete → c.fields.get? field = some (.list items) →
        holdsReference field (.list items) = true →
        ∃ c' told, changes'[i]? = some c' ∧ told.map Prod.fst = items
          ∧ (∀ x ∈ told, session.Told p session'
            (itemEffect ⟨upcomingOf changes, index, accessors⟩ x.2 c.id field x.1).lookUps x.2)
          ∧ KeepsParallel ⟨upcomingOf changes, index, accessors⟩ c.id field told tally
            (c'.references.get? field) := by
  obtain ⟨tally, changes', session', hrun⟩ :=
    exists_resolveReferences_eq_ok hp index accessors changes session
  obtain ⟨effects, htakes, rfl, rfl, -⟩ := exists_effects_of_resolveReferences hrun
  refine ⟨_, _, session', hrun, fun i c field items hc haction hitems hholds => ?_⟩
  obtain ⟨e, he, htake⟩ := exists_right_of_forall₂ htakes hc
  have hfaults : e.report.faults ⊆ (Effect.sum effects).report.faults := fun f hf => by
    rw [Effect.faults_sum]
    exact List.mem_flatMap.mpr ⟨e, List.mem_of_getElem? he, hf⟩
  obtain ⟨told, hfst, htold, hparallel⟩ := htake.keepsParallel haction hitems hholds
    (hempty c (List.mem_of_getElem? hc)) hfaults
  refine ⟨e.onChange c, told, ?_, hfst, htold, hparallel⟩
  rw [List.getElem?_zipWith, hc, he]

/-- A group of control planes: one is written out, one is created in the batch, and one is known to
the remote side by its name. -/
def groupBatch : List Change := [
  { id := "1:c:control_plane:edge", kind := "control_plane", ref := "edge", action := .create },
  { id := "2:c:control_plane_group:all", kind := "control_plane_group", ref := "all"
    action := .create
    fields := Dict.ofList [("members", .list [.text "0f8fad5b-d9cb-469f-a165-70867728950e",
      .text "edge", .text "core"])] }]

/-- A remote side with one control plane. -/
def coreControlPlane : Snapshot where
  resources := [{ id := "cp0", kind := "control_plane", name := "core"
                  labels := Dict.singleton managedLabel "true" }]

open Resolution in
theorem keepsParallel_groupBatch : (Provider.ofSnapshot coreControlPlane).Serves
    ∧ (∀ c ∈ groupBatch, c.references = ∅) ∧ ∃ tally changes' session',
      resolveReferences (.ofSnapshot coreControlPlane) .none standardAccessors groupBatch {}
        = (.ok tally, changes', session')
      ∧ ∃ c' told, changes'[1]? = some c' ∧ told.length = 3
        ∧ KeepsParallel ⟨upcomingOf groupBatch, .none, standardAccessors⟩
          "2:c:control_plane_group:all" "members" told tally (c'.references.get? "members") := by
  have hp := serves_ofSnapshot coreControlPlane
  have hempty : ∀ c ∈ groupBatch, c.references = ∅ := by decide
  obtain ⟨tally, changes', session', hrun, hlists⟩ :=
    keepsParallel_resolveReferences hp .none standardAccessors hempty {}
  obtain ⟨c', told, hc', hfst, -, hparallel⟩ :=
    hlists 1 _ "members" _ rfl (by decide) rfl (by decide)
  have hlength : told.length = 3 := by rw [← List.length_map Prod.fst, hfst]; rfl
  exact ⟨hp, hempty, tally, changes', session', hrun, c', told, hc', hlength, hparallel⟩

end Reconcile
