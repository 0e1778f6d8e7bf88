import Reconcile.Proofs.Order.Waiting

/-!
# Proofs/Order/Execution — the order in which a batch runs

`ordering_of_ok` says what an execution order is when there is one: the identifiers of the batch
are distinct, every listed dependency is one of them, and the order is that of a greedy order of the
places, each change behind those it waits for.  `greedyExecution_of_executionOrder` reads this off
the list of identifiers.
-/

namespace Reconcile

/-! ## Checks before the ordering -/

theorem firstRepeatedGo_eq_none {seen l : List String} :
    firstRepeated?.go seen l = none ↔ l.Nodup ∧ ∀ s ∈ l, s ∉ seen := by
  induction l generalizing seen with
  | nil => simp [firstRepeated?.go]
  | cons s rest ih =>
    unfold firstRepeated?.go
    split
    · next hs => simp [hs]
    · next hs =>
      rw [ih, List.nodup_cons]
      constructor
      · rintro ⟨hnodup, hfresh⟩
        refine ⟨⟨fun hmem => hfresh s hmem List.mem_cons_self, hnodup⟩, fun t ht => ?_⟩
        rcases List.mem_cons.mp ht with rfl | ht
        · exact hs
        · exact fun hseen => hfresh t ht (.tail _ hseen)
      · rintro ⟨⟨hnot, hnodup⟩, hfresh⟩
        refine ⟨hnodup, fun t ht hseen => ?_⟩
        rcases List.mem_cons.mp hseen with rfl | hseen
        · exact hnot ht
        · exact hfresh t (.tail _ ht) hseen

/-- A list without a repeated member has each member once. -/
theorem firstRepeated?_eq_none {l : List String} : firstRepeated? l = none ↔ l.Nodup := by
  rw [firstRepeated?, firstRepeatedGo_eq_none]
  simp

/-- No dependency dangles where every listed one names a change. -/
theorem danglingDependency?_eq_none {changes : List Change} :
    danglingDependency? changes = none
      ↔ ∀ c ∈ changes, ∀ d ∈ c.dependsOn, d ∈ changes.map (·.id) := by
  simp [danglingDependency?, List.findSome?_eq_none_iff]

/-! ## What an execution order is -/

theorem idAt_of_getElem? {changes : List Change} {i : Nat} {c : Change}
    (h : changes[i]? = some c) : idAt changes i = c.id := by simp [idAt, h]

theorem map_idAt_range (changes : List Change) :
    (List.range changes.length).map (idAt changes) = changes.map (·.id) := by
  refine List.ext_getElem (by simp) fun i hi _ => ?_
  have hlt : i < changes.length := by simpa using hi
  simp [idAt, hlt]

/-- **A batch that can be ordered**: its identifiers are distinct, the dependencies it lists are
among them, and the order goes through the places greedily. -/
structure Ordering (changes : List Change) (order : List String) : Prop where
  nodup_ids : (changes.map (·.id)).Nodup
  mem_ids : ∀ c ∈ changes, ∀ d ∈ c.dependsOn, d ∈ changes.map (·.id)
  greedy : ∃ places, GreedyOrder changes.length (WaitsFor changes) places
    ∧ order = places.map (idAt changes)

variable {changes : List Change} {order : List String}

theorem ordering_of_ok (h : executionOrder changes = .ok order) : Ordering changes order := by
  unfold executionOrder at h
  cases hrepeated : firstRepeated? (changes.map (·.id)) with
  | some id => simp [hrepeated] at h
  | none =>
    cases hdangling : danglingDependency? changes with
    | some e => simp [hrepeated, hdangling] at h
    | none =>
      simp only [hrepeated, hdangling] at h
      split at h
      · next hall =>
        refine ⟨firstRepeated?_eq_none.mp hrepeated, danglingDependency?_eq_none.mp hdangling,
          _, ?_, (Except.ok.inj h).symm⟩
        have hgreedy := Agenda.greedyOrder_run (isTable_dependencyTable changes) changes.length
          (by rw [hall, length_dependencyTable])
        rw [length_dependencyTable] at hgreedy
        exact hgreedy.congr fun i j _ => mem_dependencyTable
      · exact absurd h (by simp)

namespace Ordering

/-- The order lists the identifiers of the batch. -/
theorem perm (h : Ordering changes order) : order.Perm (changes.map (·.id)) := by
  obtain ⟨places, hgreedy, rfl⟩ := h.greedy
  rw [← map_idAt_range]
  exact hgreedy.perm.map _

theorem nodup (h : Ordering changes order) : order.Nodup := h.perm.nodup_iff.mpr h.nodup_ids

/-- The identifier of a change stands where the greedy order has its place. -/
theorem idxOf_id (h : Ordering changes order) {places : List Nat}
    (hgreedy : GreedyOrder changes.length (WaitsFor changes) places)
    (horder : order = places.map (idAt changes)) {i : Nat} {c : Change}
    (hc : changes[i]? = some c) : order.idxOf c.id = places.idxOf i := by
  have hi : i < changes.length := (List.getElem?_eq_some_iff.mp hc).1
  have hlt : places.idxOf i < places.length :=
    List.idxOf_lt_length_iff.mpr (hgreedy.mem_iff.mpr hi)
  have hlt' : places.idxOf i < order.length := by rwa [horder, List.length_map]
  have hget : order[places.idxOf i] = c.id := by
    simp only [horder, List.getElem_map, List.getElem_idxOf, idAt_of_getElem? hc]
  rw [← hget]
  exact h.nodup.idxOf_getElem _ hlt'

/-- **A change comes behind every change that it waits for.** -/
theorem idxOf_lt (h : Ordering changes order) {i j : Nat} {c d : Change}
    (hc : changes[i]? = some c) (hd : changes[j]? = some d) (hw : WaitsFor changes i j) :
    order.idxOf d.id < order.idxOf c.id := by
  obtain ⟨places, hgreedy, horder⟩ := h.greedy
  rw [h.idxOf_id hgreedy horder hc, h.idxOf_id hgreedy horder hd]
  exact hgreedy.idxOf_lt (List.getElem?_eq_some_iff.mp hc).1 hw

/-- A change comes behind every other change that it lists. -/
theorem idxOf_lt_of_mem_dependsOn (h : Ordering changes order) {c : Change} (hc : c ∈ changes)
    {d : String} (hd : d ∈ c.dependsOn) (hne : d ≠ c.id) : order.idxOf d < order.idxOf c.id := by
  obtain ⟨e, he, rfl⟩ := List.mem_map.mp (h.mem_ids c hc d hd)
  obtain ⟨i, hi⟩ := List.mem_iff_getElem?.mp hc
  obtain ⟨j, hj⟩ := List.mem_iff_getElem?.mp he
  refine h.idxOf_lt hi hj ⟨fun hij => ?_, c, e, hi, hj, .inl hd⟩
  obtain rfl : e = c := Option.some.inj (hj.symm.trans (hij ▸ hi))
  exact hne rfl

end Ordering

/-- **A list of identifiers runs a batch greedily**: it lists the identifiers of the batch, each
once; a change comes behind all that it waits for; and it comes from the only order of the places
that takes, at every step, the first change of the batch that is left and waits for none that is
left. -/
structure GreedyExecution (changes : List Change) (order : List String) : Prop where
  nodup : order.Nodup
  perm : order.Perm (changes.map (·.id))
  behind : ∀ i j c d, changes[i]? = some c → changes[j]? = some d → WaitsFor changes i j →
    order.idxOf d.id < order.idxOf c.id
  greedy : ∃ places, order = places.map (idAt changes)
    ∧ GreedyOrder changes.length (WaitsFor changes) places
    ∧ ∀ other, GreedyOrder changes.length (WaitsFor changes) other → other = places

/-- **An execution order runs its batch greedily.** -/
theorem greedyExecution_of_executionOrder (h : executionOrder changes = .ok order) :
    GreedyExecution changes order := by
  have hord := ordering_of_ok h
  obtain ⟨places, hgreedy, horder⟩ := hord.greedy
  exact {
    nodup := hord.nodup
    perm := hord.perm
    behind := fun i j c d hc hd hw => hord.idxOf_lt hc hd hw
    greedy := ⟨places, horder, hgreedy, fun other hother => hother.unique hgreedy⟩ }

/-- A batch whose first change refers to its last one, which lists the one between. -/
def lateCreateBatch : List Change := [
  { id := "1:u:api_version:v1", kind := "api_version", ref := "v1", action := .update,
    references := Dict.singleton "api_id" { target := "checkout", id := unknownId } },
  { id := "2:c:portal:main", kind := "portal", ref := "main", action := .create },
  { id := "3:c:api:checkout", kind := "api", ref := "checkout", action := .create,
    dependsOn := ["2:c:portal:main"] }]

theorem greedyExecution_lateCreateBatch :
    executionOrder lateCreateBatch
        = .ok ["2:c:portal:main", "3:c:api:checkout", "1:u:api_version:v1"]
      ∧ GreedyExecution lateCreateBatch
        ["2:c:portal:main", "3:c:api:checkout", "1:u:api_version:v1"] :=
  ⟨rfl, greedyExecution_of_executionOrder rfl⟩

end Reconcile
