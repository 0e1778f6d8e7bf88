import Reconcile.Proofs.Numbering.Repositioning
import Reconcile.Proofs.Order.Circles

/-!
# Proofs/Order/Renaming — the ordering of renamed changes

The ordering compares identifiers with one another, and goes by places for the rest.  Where
different identifiers stay different, a renamed batch therefore has the renamed order, or fails as
the batch does with the identifiers in the fault renamed (`renamedOrder_executionOrder`).  With the
numbering, which sees no positions either, this is the main fact: `traceless_of_repositioned` — a
plan comes out the same whatever positions its identifiers had while it was planned.
-/

namespace Reconcile

/-- **What the ordering of a batch gives, and the same with the identifiers renamed**: the order,
the identifier that two changes have, or the changes that wait for each other, of which the details
list a circle. -/
inductive RenamedOrder (rename : String → String) :
    Except PlanFault (List String) → Except PlanFault (List String) → Prop
  | ok (order : List String) : RenamedOrder rename (.ok order) (.ok (order.map rename))
  | duplicateId (id : String) :
      RenamedOrder rename (.error (.duplicateId id)) (.error (.duplicateId (rename id)))
  | cycle {ids circle : List String} (hcircle : circle ⊆ ids) :
      RenamedOrder rename (.error (.cycle ids (String.intercalate " -> " circle)))
        (.error (.cycle (ids.map rename) (String.intercalate " -> " (circle.map rename))))

/-! ## What the checks find -/

section Repeated

variable {rename : String → String} {known : List String}

/-- A renamed member is found in a renamed list where the member is found in the list. -/
theorem mem_map_iff_of_injOn (hinj : Set.InjOn rename {id | id ∈ known}) {l : List String}
    (hl : l ⊆ known) {s : String} (hs : s ∈ known) : rename s ∈ l.map rename ↔ s ∈ l := by
  constructor
  · intro hmem
    obtain ⟨t, ht, hts⟩ := List.mem_map.mp hmem
    exact hinj (hl ht) hs hts ▸ ht
  · exact List.mem_map_of_mem

theorem firstRepeatedGo_map (hinj : Set.InjOn rename {id | id ∈ known}) {seen l : List String}
    (hseen : seen ⊆ known) (hl : l ⊆ known) :
    firstRepeated?.go (seen.map rename) (l.map rename) = (firstRepeated?.go seen l).map rename := by
  induction l generalizing seen with
  | nil => rfl
  | cons s rest ih =>
    obtain ⟨hs, hrest⟩ := List.cons_subset.mp hl
    have hmem := mem_map_iff_of_injOn hinj hseen hs
    rw [List.map_cons, firstRepeated?.go, firstRepeated?.go, ← List.map_cons,
      ih (List.cons_subset.mpr ⟨hs, hseen⟩) hrest]
    simp only [hmem]
    split <;> rfl

/-- **The first repeated member of a renamed list is that of the list, renamed.** -/
theorem firstRepeated?_map {l : List String} (hinj : Set.InjOn rename {id | id ∈ l}) :
    firstRepeated? (l.map rename) = (firstRepeated? l).map rename :=
  firstRepeatedGo_map hinj (List.nil_subset l) (List.Subset.refl l)

end Repeated

/-! ## What the table holds -/

/-- A test that does not tell the members of two lists apart passes at the same places. -/
theorem placesOf_map {α β : Type} {f : α → β} {p : α → Bool} {q : β → Bool}
    (h : ∀ a, q (f a) = p a) (l : List α) : placesOf q (l.map f) = placesOf p l := by
  rw [placesOf, placesOf, List.zipIdx_map, List.filter_map, List.map_map]
  exact congrArg _ (List.filter_congr fun e _ => h e.1)

section Renamed

variable {rename : String → String} {changes : List Change}

theorem awaitedCreate?_renamed (kind : Option String) (ref : String) :
    awaitedCreate? (changes.map (Change.renamed rename)) kind ref
      = awaitedCreate? changes kind ref := by
  have hsame : ∀ p : Change → Bool, (∀ c : Change, p (c.renamed rename) = p c) →
      placesOf p (changes.map (Change.renamed rename)) = placesOf p changes :=
    fun p hp => placesOf_map hp changes
  cases kind with
  | some kind => rw [awaitedCreate?, awaitedCreate?, lastCreate?, lastCreate?, hsame _ fun _ => rfl]
  | none => rw [awaitedCreate?, awaitedCreate?, soleCreate?, soleCreate?, hsame _ fun _ => rfl]

theorem implicitPlaces_renamed (c : Change) :
    implicitPlaces (changes.map (Change.renamed rename)) (c.renamed rename)
      = implicitPlaces changes c :=
  List.filterMap_congr fun r _ => awaitedCreate?_renamed r.1 r.2

theorem map_id_renamed :
    (changes.map (Change.renamed rename)).map (·.id) = (changes.map (·.id)).map rename := by
  rw [List.map_map, List.map_map]
  rfl

/-- **Renamed changes wait for each other as the changes do.** -/
theorem dependencyTable_renamed (hinj : Set.InjOn rename {id | id ∈ changes.map (·.id)})
    (hknown : ∀ c ∈ changes, ∀ d ∈ c.dependsOn, d ∈ changes.map (·.id)) :
    dependencyTable (changes.map (Change.renamed rename)) = dependencyTable changes := by
  refine dependencyTable_map fun i c j d hc hd _ => ?_
  have hlisted : rename d.id ∈ c.dependsOn.map rename ↔ d.id ∈ c.dependsOn :=
    mem_map_iff_of_injOn hinj (hknown c (List.mem_of_getElem? hc))
      (List.mem_map_of_mem (List.mem_of_getElem? hd))
  rw [implicitPlaces_renamed]
  exact or_congr_left hlisted

/-- At a place stands the renamed identifier. -/
theorem map_idAt_renamed {places : List Nat} (hlt : ∀ i ∈ places, i < changes.length) :
    places.map (idAt (changes.map (Change.renamed rename)))
      = (places.map (idAt changes)).map rename := by
  rw [List.map_map]
  refine List.map_congr_left fun i hi => ?_
  obtain ⟨c, hc⟩ : ∃ c, changes[i]? = some c := ⟨_, List.getElem?_eq_getElem (hlt i hi)⟩
  have hc' : (changes.map (Change.renamed rename))[i]? = some (c.renamed rename) := by
    rw [List.getElem?_map, hc, Option.map_some]
  rw [Function.comp_apply, idAt_of_getElem? hc, idAt_of_getElem? hc', Change.renamed]

/-! ## What the ordering gives -/

theorem executionOrder_of_repeated {id : String}
    (h : firstRepeated? (changes.map (·.id)) = some id) :
    executionOrder changes = .error (.duplicateId id) := by
  rw [executionOrder, h]

/-- A batch that passes the checks is ordered by the run over its table. -/
theorem executionOrder_of_checks (hnodup : firstRepeated? (changes.map (·.id)) = none)
    (hknown : ∀ c ∈ changes, ∀ d ∈ c.dependsOn, d ∈ changes.map (·.id)) {table : List (List Nat)}
    (htable : dependencyTable changes = table) {a : Agenda}
    (ha : Agenda.run table changes.length (.start table) = a) :
    executionOrder changes = if a.taken.length = changes.length then .ok (a.taken.map (idAt changes))
      else .error (cycleFault changes table a) := by
  rw [executionOrder, hnodup, danglingDependency?_eq_none.mpr hknown, htable]
  dsimp only
  rw [ha]

/-- **A run that stopped early is reported alike.** -/
theorem renamedOrder_cycleFault {a : Agenda} (h : Agenda.Stopped (dependencyTable changes) a)
    (hless : a.taken.length ≠ changes.length) :
    RenamedOrder rename (.error (cycleFault changes (dependencyTable changes) a))
      (.error (cycleFault (changes.map (Change.renamed rename)) (dependencyTable changes) a)) := by
  obtain ⟨circle, hcircle, hfound⟩ := exists_circle_of_stopped h hless fun i => mem_stuck_iff h
  have hshallow := hfound (dependencyTable changes).length (length_dependencyTable changes).ge
  rw [← circle?] at hshallow
  have hstuck : ∀ i ∈ closed circle, i < changes.length ∧ i ∉ a.taken := by
    intro i hi
    have hmem : i ∈ circle := (List.mem_append.mp hi).elim id List.mem_of_mem_take
    exact (leadsToCircle_iff h).mp (leadsToCircle_of_mem hcircle hmem)
  simp only [cycleFault, List.length_map, hshallow]
  rw [map_idAt_renamed fun i hi => (hstuck i hi).1,
    map_idAt_renamed fun i hi => ((mem_stuck_iff h).mp hi).1]
  exact .cycle (List.map_subset _ fun i hi => (mem_stuck_iff h).mpr (hstuck i hi))

/-- **A renamed batch is ordered as the batch is**, where different identifiers stay different and
the changes list none but each other. -/
theorem renamedOrder_executionOrder (hinj : Set.InjOn rename {id | id ∈ changes.map (·.id)})
    (hknown : ∀ c ∈ changes, ∀ d ∈ c.dependsOn, d ∈ changes.map (·.id)) :
    RenamedOrder rename (executionOrder changes)
      (executionOrder (changes.map (Change.renamed rename))) := by
  have hids : (changes.map (Change.renamed rename)).map (·.id) = (changes.map (·.id)).map rename :=
    map_id_renamed
  have hchecked := firstRepeated?_map hinj
  rw [← hids] at hchecked
  cases hrepeated : firstRepeated? (changes.map (·.id)) with
  | some id =>
    rw [hrepeated] at hchecked
    rw [executionOrder_of_repeated hrepeated, executionOrder_of_repeated hchecked]
    exact .duplicateId id
  | none =>
    rw [hrepeated] at hchecked
    have hrenamed : ∀ c ∈ changes.map (Change.renamed rename), ∀ d ∈ c.dependsOn,
        d ∈ (changes.map (Change.renamed rename)).map (·.id) := by
      intro c hc d hd
      obtain ⟨b, hb, rfl⟩ := List.mem_map.mp hc
      obtain ⟨old, hold, rfl⟩ := List.mem_map.mp hd
      rw [hids]
      exact List.mem_map_of_mem (hknown b hb old hold)
    have htable := dependencyTable_renamed hinj hknown
    obtain ⟨a, ha⟩ : ∃ a, Agenda.run (dependencyTable changes) changes.length
      (.start (dependencyTable changes)) = a := ⟨_, rfl⟩
    have hlength : (changes.map (Change.renamed rename)).length = changes.length := List.length_map _
    rw [executionOrder_of_checks hrepeated hknown rfl ha,
      executionOrder_of_checks hchecked hrenamed htable (hlength.symm ▸ ha), hlength]
    split
    · next hall =>
      have htracks := Agenda.tracks_run (isTable_dependencyTable changes) changes.length
        (Agenda.tracks_start (dependencyTable changes))
      rw [ha] at htracks
      rw [map_idAt_renamed fun i hi => length_dependencyTable changes ▸ htracks.lt i hi]
      exact .ok _
    · next hless =>
      have hstopped := Agenda.stopped_run (isTable_dependencyTable changes)
      rw [length_dependencyTable, ha] at hstopped
      exact renamedOrder_cycleFault (hstopped hless) hless

end Renamed

/-! ## Positions -/

/-- **Positions leave no trace.**  A plan whose changes and warnings name none but its own changes
is ordered alike under other positions, and in their orders the two plans are numbered as one. -/
theorem traceless_of_repositioned {p p' : Plan} {rename : String → String}
    (hknown : ∀ c ∈ p.changes, ∀ d ∈ c.dependsOn, d ∈ p.ids)
    (hwarned : ∀ w ∈ p.warnings, w.changeId ∈ p.ids) (h : p.Repositioned rename p')
    (hchanges : p'.changes = p.changes.map (Change.renamed rename)) :
    RenamedOrder rename (executionOrder p.changes) (executionOrder p'.changes)
      ∧ ∀ order, executionOrder p.changes = .ok order →
        ∃ q, p.renumber order = .ok q ∧ p'.renumber (order.map rename) = .ok q := by
  refine ⟨hchanges ▸ renamedOrder_executionOrder h.injOn hknown, fun order horder => ?_⟩
  have hordering := ordering_of_ok horder
  have hreadable : ∀ id ∈ p.ids, (ChangeId.parse? id).isSome = true := by
    intro id hid
    obtain ⟨c, -, hc, -⟩ := h.moved id hid
    exact Option.isSome_of_eq_some hc
  obtain ⟨q, hq⟩ := Plan.exists_renumber_iff.mpr
    ⟨hordering.nodup_ids, hordering.perm, hreadable, hknown, hwarned⟩
  exact ⟨q, hq, h.renumber_map hq⟩

/-- A version that waits for its api, an api that lists a delete, and the delete; the positions say
the opposite. -/
def countedPlan : Plan where
  metadata := ⟨Plan.formatVersion, ⟨0, 0⟩, Plan.defaultGenerator, .sync⟩
  changes := [
    { id := "9:c:api_version:v1", kind := "api_version", ref := "v1", action := .create,
      parent := some { kind := "api", ref := "shop:orders" } },
    { id := "10:c:api:shop:orders", kind := "api", ref := "shop:orders", action := .create,
      dependsOn := ["11:d:portal:main", "10:c:api:shop:orders"] },
    { id := "11:d:portal:main", kind := "portal", ref := "main", action := .delete }]
  warnings := [⟨"10:c:api:shop:orders", "left for execution"⟩]

/-- The identifiers of these changes with the positions that two of them have changed, and one
written with a sign. -/
def recounted : String → String
  | "9:c:api_version:v1" => "10:c:api_version:v1"
  | "10:c:api:shop:orders" => "9:c:api:shop:orders"
  | "11:d:portal:main" => "+9:d:portal:main"
  | id => id

/-- The same plan under these identifiers, before its changes are put into an order. -/
def recountedPlan : Plan :=
  { countedPlan with
    changes := countedPlan.changes.map (Change.renamed recounted)
    warnings := countedPlan.warnings.map (Warning.renamed recounted) }

theorem repositioned_recountedPlan : countedPlan.Repositioned recounted recountedPlan where
  injOn := by
    have hinj : ∀ a ∈ countedPlan.ids, ∀ b ∈ countedPlan.ids,
        recounted a = recounted b → a = b := by decide +kernel
    exact fun a ha b hb => hinj a ha b hb
  moved id hid := by
    simp only [Plan.ids, countedPlan, List.map_cons, List.map_nil, List.mem_cons, List.not_mem_nil,
      or_false] at hid
    rcases hid with rfl | rfl | rfl
    · exact ⟨_, 10, rfl, rfl⟩
    · exact ⟨_, 9, rfl, rfl⟩
    · exact ⟨_, 9, rfl, rfl⟩
  metadata := rfl
  changes := .refl _
  warnings := rfl

theorem traceless_recountedPlan :
    executionOrder countedPlan.changes
        = .ok ["11:d:portal:main", "10:c:api:shop:orders", "9:c:api_version:v1"]
      ∧ RenamedOrder recounted
        (.ok ["11:d:portal:main", "10:c:api:shop:orders", "9:c:api_version:v1"])
        (executionOrder recountedPlan.changes)
      ∧ ∃ q, countedPlan.renumber ["11:d:portal:main", "10:c:api:shop:orders", "9:c:api_version:v1"]
          = .ok q
        ∧ recountedPlan.renumber ["+9:d:portal:main", "9:c:api:shop:orders", "10:c:api_version:v1"]
          = .ok q := by
  obtain ⟨horder, hnumbered⟩ := traceless_of_repositioned (by decide +kernel) (by decide +kernel)
    repositioned_recountedPlan rfl
  exact ⟨rfl, horder, hnumbered _ rfl⟩

end Reconcile
