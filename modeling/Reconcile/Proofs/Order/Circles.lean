import Reconcile.Proofs.Order.Diagnosis
import Reconcile.Proofs.Order.Search

/-!
# Proofs/Order/Circles — the report on changes that wait for each other

A batch that cannot be ordered leaves some changes behind: exactly those from which what changes wait
for leads into a circle (`leadsToCircle_iff`).  Each of them waits for another one of
them, so that the search started at them finds a circle.  Main fact:
`reportsCircle_of_executionOrder`.
-/

namespace Reconcile

/-! ## Runs that stop early -/

namespace Agenda

variable {table : List (List Nat)} {a : Agenda} {i j : Nat}

/-- **A run that cannot go on**: its counters are right, what it took is greedy, and no place is
ready. -/
structure Stopped (table : List (List Nat)) (a : Agenda) : Prop where
  tracks : a.Tracks table []
  greedy : GreedyPrefix table.length (Needs table) a.taken
  spent : a.Spent
  ready : a.ready = []

/-- A run over all places that takes fewer has stopped. -/
theorem stopped_run (ht : IsTable table)
    (hless : (run table table.length (start table)).taken.length ≠ table.length) :
    Stopped table (run table table.length (start table)) where
  tracks := tracks_run ht _ (tracks_start table)
  greedy := greedy_run ht _ (tracks_start table) .nil
  spent := spent_run ht _ (tracks_start table) nofun
  ready := (length_taken_run table table.length (start table)).resolve_left fun hall =>
    hless (by simpa [start] using hall)

namespace Stopped

/-- The places that still wait are those that have not been taken. -/
theorem counter_pos_iff (h : Stopped table a) (hi : i < table.length) :
    0 < a.counter i ↔ i ∉ a.taken := by
  rw [Nat.pos_iff_ne_zero, not_iff_not]
  constructor
  · intro hzero
    by_contra hleft
    exact absurd ((h.tracks.ready i).mpr ⟨hi, hleft, hzero⟩) (by simp [h.ready])
  · exact h.spent i

/-- **A place that is left needs one that is left.** -/
theorem exists_needs (h : Stopped table a) (hi : i < table.length) (hleft : i ∉ a.taken) :
    ∃ j ∈ row table i, j ∉ a.taken := by
  by_contra hmet
  push Not at hmet
  exact absurd (h.tracks.mem_ready.mpr ⟨hi, hleft, hmet⟩) (by simp [h.ready])

/-- What a place that was taken needs, directly or not, was taken before it. -/
theorem idxOf_lt (h : Stopped table a) (hi : i ∈ a.taken)
    (hij : Relation.TransGen (Needs table) i j) :
    j ∈ a.taken ∧ a.taken.idxOf j < a.taken.idxOf i := by
  induction hij with
  | single hij => exact ⟨h.tracks.closed i hi _ hij, h.greedy.idxOf_lt h.tracks.nodup hi hij⟩
  | tail _ hjk ih =>
    exact ⟨h.tracks.closed _ ih.1 _ hjk, (h.greedy.idxOf_lt h.tracks.nodup ih.1 hjk).trans ih.2⟩

end Stopped

end Agenda

/-! ## Places that lead into a circle -/

/-- Every place of a circle needs itself, along the others. -/
theorem Circle.transGen {needs : Nat → Nat → Prop} {circle : List Nat} (h : Circle needs circle)
    {i : Nat} (hi : i ∈ circle) : Relation.TransGen needs i i := by
  obtain ⟨first, rest, rfl⟩ := List.exists_cons_of_ne_nil (List.ne_nil_of_mem hi)
  have hreach := (h.chain.imp fun _ _ => Relation.TransGen.single).pairwise
  obtain ⟨hforth, -⟩ := List.pairwise_cons.mp hreach
  obtain ⟨-, -, hback⟩ := List.pairwise_append.mp hreach
  have hfirst : Relation.TransGen needs i first := hback i hi first List.mem_cons_self
  rcases List.mem_cons.mp hi with rfl | hi
  · exact hfirst
  · exact hfirst.trans (hforth i (List.mem_append_left _ hi))

/-- **What changes wait for leads from a place into a circle**: along it a place is reached, perhaps
the place itself, that waits for itself. -/
def LeadsToCircle (changes : List Change) (i : Nat) : Prop :=
  ∃ j, Relation.ReflTransGen (WaitsFor changes) i j ∧ Relation.TransGen (WaitsFor changes) j j

section Leads

variable {changes : List Change} {i : Nat}

theorem needs_dependencyTable (changes : List Change) :
    Agenda.Needs (dependencyTable changes) = WaitsFor changes := by
  funext i j
  exact propext mem_dependencyTable

/-- Where every place of some waits for another one of them, each of them leads into a circle. -/
theorem leadsToCircle_of_waits {stuck : Nat → Prop}
    (hstuck : ∀ i, stuck i → ∃ j, WaitsFor changes i j ∧ stuck j) (hi : stuck i) :
    LeadsToCircle changes i := by
  induction hsize : {k | Relation.TransGen (WaitsFor changes) i k}.ncard
    using Nat.strong_induction_on generalizing i with
  | h size ih =>
    obtain ⟨j, hij, hj⟩ := hstuck i hi
    by_cases hcircle : Relation.TransGen (WaitsFor changes) j j
    · exact ⟨j, .single hij, hcircle⟩
    · obtain ⟨k, hjk, hk⟩ := ih _ (hsize ▸ ncard_waits_lt hij hcircle) hj rfl
      exact ⟨k, hjk.head hij, hk⟩

/-- **The places left behind are those that lead into a circle.** -/
theorem leadsToCircle_iff {a : Agenda} (h : Agenda.Stopped (dependencyTable changes) a) :
    LeadsToCircle changes i ↔ i < changes.length ∧ i ∉ a.taken := by
  have hneeds := needs_dependencyTable changes
  constructor
  · rintro ⟨j, hij, hcircle⟩
    have hj : j ∉ a.taken := fun hj => (h.idxOf_lt hj (hneeds ▸ hcircle)).2.ne rfl
    refine ⟨?_, fun hi => ?_⟩
    · rcases Relation.ReflTransGen.cases_head hij with rfl | ⟨k, hik, -⟩
      · exact lt_length_of_waits hcircle
      · obtain ⟨-, c, -, hc, -⟩ := hik
        exact (List.getElem?_eq_some_iff.mp hc).1
    · rcases Relation.reflTransGen_iff_eq_or_transGen.mp hij with rfl | hij
      · exact hj hi
      · exact hj (h.idxOf_lt hi (hneeds ▸ hij)).1
  · have hstuck : ∀ i, i < changes.length ∧ i ∉ a.taken →
        ∃ j, WaitsFor changes i j ∧ j < changes.length ∧ j ∉ a.taken := by
      rintro i ⟨hi, hleft⟩
      obtain ⟨j, hij, hj⟩ := h.exists_needs (by rwa [length_dependencyTable]) hleft
      have hwaits : WaitsFor changes i j := mem_dependencyTable.mp hij
      exact ⟨j, hwaits, lt_length_of_waits (.single hwaits), hj⟩
    exact leadsToCircle_of_waits hstuck

/-- Each place of a circle leads into it. -/
theorem leadsToCircle_of_mem {circle : List Nat} (h : Circle (WaitsFor changes) circle)
    (hi : i ∈ circle) : LeadsToCircle changes i := ⟨i, .refl, h.transGen hi⟩

/-- The report lists the places left behind. -/
theorem mem_stuck_iff {a : Agenda} (h : Agenda.Stopped (dependencyTable changes) a) :
    i ∈ (List.range changes.length).filter (fun i => decide (0 < a.waiting.getD i 0))
      ↔ i < changes.length ∧ i ∉ a.taken := by
  rw [List.mem_filter, List.mem_range, decide_eq_true_eq]
  exact and_congr_right fun hi => h.counter_pos_iff (by rwa [length_dependencyTable])

/-- **Started at the places left behind, the search finds a circle**, the same however deep it may
go. -/
theorem exists_circle_of_stopped {a : Agenda} (h : Agenda.Stopped (dependencyTable changes) a)
    (hless : a.taken.length ≠ changes.length) {stuck : List Nat}
    (hstuck : ∀ i, i ∈ stuck ↔ i < changes.length ∧ i ∉ a.taken) :
    ∃ circle, Circle (WaitsFor changes) circle ∧ ∀ depth, changes.length ≤ depth →
      circleWithin? (dependencyTable changes) depth stuck = some (closed circle) := by
  have hlength := length_dependencyTable changes
  obtain ⟨i, hi, hleft⟩ := h.tracks.exists_left (by rwa [hlength])
  have hne : stuck ≠ [] := List.ne_nil_of_mem ((hstuck i).mpr ⟨by rwa [hlength] at hi, hleft⟩)
  rw [← needs_dependencyTable, ← hlength]
  refine exists_circleWithin?_eq (isTable_dependencyTable changes) hne (fun i hi => ?_) fun i hi => ?_
  · rw [hlength]
    exact ((hstuck i).mp hi).1
  · obtain ⟨hlt, hleft⟩ := (hstuck i).mp hi
    obtain ⟨j, hij, hj⟩ := h.exists_needs (by rwa [hlength]) hleft
    exact ⟨j, hij, (hstuck j).mpr ⟨lt_length_of_waits (.single (mem_dependencyTable.mp hij)), hj⟩⟩

end Leads

/-! ## The report -/

/-- **What a report on a batch that cannot be ordered says.**  The identifiers are those of the
places, in the order of the batch, that lead into a circle; the search started at these places finds
a circle, and would find no other if it went deeper; and the details list its identifiers, the first
one again at the end. -/
structure ReportsCircle (changes : List Change) (ids : List String) (details : String)
    (stuck circle : List Nat) : Prop where
  ascending : stuck.Pairwise (· < ·)
  leads : ∀ i, i ∈ stuck ↔ LeadsToCircle changes i
  ids : ids = stuck.map (idAt changes)
  real : Circle (WaitsFor changes) circle
  found : circle? (dependencyTable changes) stuck = some (closed circle)
  settled : ∀ depth, changes.length ≤ depth → circleWithin? (dependencyTable changes) depth stuck
    = circle? (dependencyTable changes) stuck
  details : details = String.intercalate " -> " ((closed circle).map (idAt changes))

variable {changes : List Change} {ids : List String} {details : String}

/-- A circle is reported by a run that stopped early. -/
theorem exists_stopped_of_executionOrder
    (h : executionOrder changes = .error (.cycle ids details)) :
    ∃ a, Agenda.Stopped (dependencyTable changes) a ∧ a.taken.length ≠ changes.length
      ∧ cycleFault changes (dependencyTable changes) a = .cycle ids details := by
  unfold executionOrder at h
  cases hrepeated : firstRepeated? (changes.map (·.id)) with
  | some id => simp [hrepeated] at h
  | none =>
    cases hdangling : danglingDependency? changes with
    | some e => simp [hrepeated, hdangling] at h
    | none =>
      simp only [hrepeated, hdangling] at h
      split at h
      · exact absurd h nofun
      · next hless =>
        have hstopped := Agenda.stopped_run (isTable_dependencyTable changes)
        rw [length_dependencyTable] at hstopped
        exact ⟨_, hstopped hless, hless, Except.error.inj h⟩

/-- **A reported circle is real**: whenever the ordering reports one, the report says of some places
of the batch what it should. -/
theorem reportsCircle_of_executionOrder
    (h : executionOrder changes = .error (.cycle ids details)) :
    ∃ stuck circle, ReportsCircle changes ids details stuck circle := by
  obtain ⟨a, hstopped, hless, hfault⟩ := exists_stopped_of_executionOrder h
  obtain ⟨circle, hcircle, hfound⟩ :=
    exists_circle_of_stopped hstopped hless fun i => mem_stuck_iff hstopped
  have hshallow := hfound (dependencyTable changes).length (length_dependencyTable changes).ge
  rw [← circle?] at hshallow
  simp only [cycleFault, hshallow] at hfault
  obtain ⟨hids, hdetails⟩ := PlanFault.cycle.inj hfault
  exact ⟨_, circle, {
    ascending := List.pairwise_lt_range.filter _
    leads := fun i => (mem_stuck_iff hstopped).trans (leadsToCircle_iff hstopped).symm
    ids := hids.symm
    real := hcircle
    found := hshallow
    settled := fun depth hdepth => (hfound depth hdepth).trans hshallow.symm
    details := hdetails.symm }⟩

/-- An api and another one that wait for each other, a version that waits for one of them, and a
portal. -/
def entangledBatch : List Change := [
  { id := "1:c:api_version:v1", kind := "api_version", ref := "v1", action := .create,
    parent := some { kind := "api", ref := "billing" }, dependsOn := ["2:c:portal:main"] },
  { id := "2:c:portal:main", kind := "portal", ref := "main", action := .create },
  { id := "3:c:api:orders", kind := "api", ref := "orders", action := .create,
    dependsOn := ["4:c:api:billing", "3:c:api:orders"] },
  { id := "4:c:api:billing", kind := "api", ref := "billing", action := .create,
    references := Dict.singleton "api_id" { target := "orders", id := unknownId } }]

theorem reportsCircle_entangledBatch :
    executionOrder entangledBatch
        = .error (.cycle ["1:c:api_version:v1", "3:c:api:orders", "4:c:api:billing"]
          "4:c:api:billing -> 3:c:api:orders -> 4:c:api:billing")
      ∧ ∃ stuck circle, ReportsCircle entangledBatch
        ["1:c:api_version:v1", "3:c:api:orders", "4:c:api:billing"]
        "4:c:api:billing -> 3:c:api:orders -> 4:c:api:billing" stuck circle :=
  ⟨rfl, reportsCircle_of_executionOrder rfl⟩

end Reconcile
