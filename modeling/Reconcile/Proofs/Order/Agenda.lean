import Reconcile.Plan.Order
import Reconcile.Proofs.Order.Greedy
import Mathlib.Data.List.Perm.Subperm

/-!
# Proofs/Order/Agenda — the bookkeeping of the ordering

While changes are taken one by one, a counter tells for each change that is left how many of its
dependencies are left too, and a list holds the changes whose counter is zero.  `Agenda.Tracks` says
so, also in the middle of a step, when some dependents of the change just taken are still to be
told.  Main facts: `Agenda.tracks_step` (a step keeps the counters), `Agenda.tracks_run` (so does a
run), and `Agenda.greedy_run` (what is taken is a greedy list).
-/

namespace Reconcile

/-! ## Lists of places -/

@[simp] theorem mem_placesOf {α : Type} {p : α → Bool} {l : List α} {i : Nat} :
    i ∈ placesOf p l ↔ ∃ a, l[i]? = some a ∧ p a = true := by
  simp only [placesOf, List.mem_map, List.mem_filter, Prod.exists, exists_eq_right,
    List.mk_mem_zipIdx_iff_getElem?]

theorem ascending_placesOf {α : Type} (p : α → Bool) (l : List α) :
    (placesOf p l).Pairwise (· < ·) := by
  refine List.pairwise_map.mpr (List.Pairwise.filter _ ?_)
  rw [List.pairwise_iff_getElem]
  intro i j hi hj hij
  simpa using hij

theorem nodup_placesOf {α : Type} (p : α → Bool) (l : List α) : (placesOf p l).Nodup :=
  (ascending_placesOf p l).imp fun h => h.ne

@[simp] theorem mem_insertPlace {i j : Nat} {l : List Nat} :
    j ∈ insertPlace i l ↔ j = i ∨ j ∈ l := by
  induction l with
  | nil => simp [insertPlace]
  | cons k rest ih =>
    unfold insertPlace
    split
    · simp
    · simp only [List.mem_cons, ih]
      tauto

theorem ascending_insertPlace {i : Nat} {l : List Nat} (h : l.Pairwise (· < ·)) (hi : i ∉ l) :
    (insertPlace i l).Pairwise (· < ·) := by
  induction l with
  | nil => simp [insertPlace]
  | cons k rest ih =>
    obtain ⟨hk, hrest⟩ := List.pairwise_cons.mp h
    have hne : i ≠ k := fun he => hi (he ▸ List.mem_cons_self)
    unfold insertPlace
    split
    · next hle =>
      refine List.pairwise_cons.mpr ⟨fun j hj => ?_, h⟩
      rcases List.mem_cons.mp hj with rfl | hj
      · omega
      · have := hk j hj
        omega
    · next hgt =>
      refine List.pairwise_cons.mpr ⟨fun j hj => ?_, ih hrest fun hm => hi (.tail _ hm)⟩
      rcases mem_insertPlace.mp hj with rfl | hj
      · omega
      · exact hk j hj

namespace Agenda

/-! ## Tables of dependencies -/

/-- The places that a place depends on. -/
def row (table : List (List Nat)) (i : Nat) : List Nat := table.getD i []

/-- No place is listed twice in a row, and none depends on itself. -/
structure IsTable (table : List (List Nat)) : Prop where
  nodup : ∀ i, (row table i).Nodup
  irrefl : ∀ i, i ∉ row table i

/-- How many of the places that a place depends on are left. -/
def missing (table : List (List Nat)) (taken : List Nat) (i : Nat) : Nat :=
  (row table i).countP fun j => decide (j ∉ taken)

@[simp] theorem row_of_length_le {table : List (List Nat)} {i : Nat} (h : table.length ≤ i) :
    row table i = [] := by
  simp [row, List.getElem?_eq_none h]

theorem mem_dependents {table : List (List Nat)} {i k : Nat} :
    k ∈ dependents table i ↔ i ∈ row table k := by
  simp only [dependents, mem_placesOf, row, List.getD_eq_getElem?_getD, List.contains_iff_mem]
  cases h : table[k]? <;> simp

theorem nodup_dependents (table : List (List Nat)) (i : Nat) : (dependents table i).Nodup :=
  nodup_placesOf _ _

theorem missing_eq_zero {table : List (List Nat)} {taken : List Nat} {i : Nat} :
    missing table taken i = 0 ↔ ∀ j ∈ row table i, j ∈ taken := by
  simp [missing, List.countP_eq_zero]

/-- A place taken more is missed by one place less exactly where it was listed. -/
theorem countP_left_snoc {taken : List Nat} {i : Nat} (hi : i ∉ taken) {l : List Nat}
    (hl : l.Nodup) : l.countP (fun j => decide (j ∉ taken))
      = l.countP (fun j => decide (j ∉ taken ++ [i])) + if i ∈ l then 1 else 0 := by
  induction l with
  | nil => simp
  | cons k rest ih =>
    obtain ⟨hk, hrest⟩ := List.nodup_cons.mp hl
    rw [List.countP_cons, List.countP_cons, ih hrest]
    by_cases hki : k = i
    · subst hki
      simp [hi, hk]
    · have hleft : k ∉ taken ++ [i] ↔ k ∉ taken := by simp [hki]
      have hmem : i ∈ k :: rest ↔ i ∈ rest := by simp [Ne.symm hki]
      simp only [hleft, hmem]
      omega

theorem missing_snoc {table : List (List Nat)} (ht : IsTable table) {taken : List Nat} {i : Nat}
    (hi : i ∉ taken) (k : Nat) : missing table taken k
      = missing table (taken ++ [i]) k + if k ∈ dependents table i then 1 else 0 := by
  simp only [mem_dependents]
  exact countP_left_snoc hi (ht.nodup k)

/-! ## What the counters say -/

/-- The counter of a place. -/
def counter (a : Agenda) (i : Nat) : Nat := a.waiting.getD i 0

/-- **The counters are right.**  The counter of each place that is left is the number of its
dependencies that are left, and one more where the place is still to be told that a dependency has
been taken; ready are the places with counter zero, each once and in ascending order. -/
structure Tracks (table : List (List Nat)) (untold : List Nat) (a : Agenda) : Prop where
  length_waiting : a.waiting.length = table.length
  nodup : a.taken.Nodup
  lt : ∀ i ∈ a.taken, i < table.length
  closed : ∀ i ∈ a.taken, ∀ j ∈ row table i, j ∈ a.taken
  waiting : ∀ i, i < table.length → i ∉ a.taken →
    a.counter i = missing table a.taken i + if i ∈ untold then 1 else 0
  ascending : a.ready.Pairwise (· < ·)
  ready : ∀ i, i ∈ a.ready ↔ i < table.length ∧ i ∉ a.taken ∧ a.counter i = 0

/-- The needs that a table lists. -/
def Needs (table : List (List Nat)) (i j : Nat) : Prop := j ∈ row table i

variable {table : List (List Nat)} {a b : Agenda}

/-- Between steps the ready places are those that can be taken. -/
theorem Tracks.mem_ready (h : a.Tracks table []) {i : Nat} :
    i ∈ a.ready ↔ Enabled table.length (Needs table) a.taken i := by
  rw [h.ready]
  constructor
  · rintro ⟨hlt, hfresh, hzero⟩
    rw [h.waiting i hlt hfresh] at hzero
    exact ⟨hlt, hfresh, missing_eq_zero.mp (by simpa using hzero)⟩
  · rintro ⟨hlt, hfresh, hmet⟩
    refine ⟨hlt, hfresh, ?_⟩
    rw [h.waiting i hlt hfresh, missing_eq_zero.mpr hmet]
    simp

theorem tracks_start (table : List (List Nat)) : (start table).Tracks table [] where
  length_waiting := by simp [start]
  nodup := by simp [start]
  lt := by simp [start]
  closed := by simp [start]
  waiting i hi _ := by
    simp [start, counter, missing, row, hi]
  ascending := ascending_placesOf _ _
  ready i := by
    simp only [start, mem_placesOf, List.isEmpty_iff, exists_eq_right, List.not_mem_nil,
      not_false_eq_true, true_and, counter, List.getD_eq_getElem?_getD, List.getElem?_map]
    constructor
    · intro h
      obtain ⟨hlt, -⟩ := List.getElem?_eq_some_iff.mp h
      exact ⟨hlt, by simp [h]⟩
    · rintro ⟨hlt, h⟩
      simpa [hlt] using h

/-- What has been taken are places, each once. -/
theorem Tracks.subperm_range {untold : List Nat} (h : a.Tracks table untold) :
    a.taken.Subperm (List.range table.length) :=
  h.nodup.subperm fun i hi => List.mem_range.mpr (h.lt i hi)

theorem Tracks.length_taken_le {untold : List Nat} (h : a.Tracks table untold) :
    a.taken.length ≤ table.length := by
  have hle := h.subperm_range.length_le
  rwa [List.length_range] at hle

/-- A run that took as many places as there are took them all. -/
theorem Tracks.perm_range {untold : List Nat} (h : a.Tracks table untold)
    (hall : a.taken.length = table.length) : a.taken.Perm (List.range table.length) :=
  h.subperm_range.perm_of_length_le (by rw [List.length_range, hall])

/-- A run that took fewer places than there are left one. -/
theorem Tracks.exists_left (h : a.Tracks table []) (hless : a.taken.length ≠ table.length) :
    ∃ i < table.length, i ∉ a.taken := by
  by_contra hall
  push Not at hall
  have hle := (List.nodup_range.subperm fun i hi => hall i (List.mem_range.mp hi)).length_le
  rw [List.length_range] at hle
  exact hless (Nat.le_antisymm h.length_taken_le hle)

/-- Telling a dependent changes its counter and no other. -/
theorem counter_release {k : Nat} (hk : k < a.waiting.length) (i : Nat) :
    (a.release k).counter i = if i = k then a.counter k - 1 else a.counter i := by
  by_cases hik : i = k
  · subst hik
    simp [Agenda.release, counter, hk]
  · simp [Agenda.release, counter, hik, List.getElem?_set_ne fun h : k = i => hik h.symm]

/-- A dependent becomes ready when its counter comes to zero. -/
theorem mem_ready_release {k i : Nat} :
    i ∈ (a.release k).ready ↔ (i = k ∧ a.counter k - 1 = 0) ∨ i ∈ a.ready := by
  change i ∈ (if a.counter k - 1 = 0 then insertPlace k a.ready else a.ready) ↔ _
  split
  · next hzero => simp [hzero]
  · next hzero => simp [hzero]

/-- **Telling one dependent** settles it: its counter is right now. -/
theorem Tracks.release {k : Nat} {untold : List Nat} (h : a.Tracks table (k :: untold))
    (hk : k ∉ untold) (hlt : k < table.length) (hfresh : k ∉ a.taken) :
    (a.release k).Tracks table untold := by
  have hcounter : a.counter k = missing table a.taken k + 1 := by
    rw [h.waiting k hlt hfresh]
    simp
  have hnotReady : k ∉ a.ready := by
    rw [h.ready, hcounter]
    simp
  have hlt' : k < a.waiting.length := h.length_waiting ▸ hlt
  refine ⟨?_, h.nodup, h.lt, h.closed, fun i hi hit => ?_, ?_, fun i => ?_⟩
  · simp [Agenda.release, h.length_waiting]
  · rw [counter_release hlt', hcounter]
    by_cases hik : i = k
    · subst hik
      simp [hk, Agenda.release]
    · have hmem : i ∈ k :: untold ↔ i ∈ untold := by simp [hik]
      rw [if_neg hik, h.waiting i hi hit]
      simp only [hmem]
      rfl
  · simp only [Agenda.release]
    split
    · exact ascending_insertPlace h.ascending hnotReady
    · exact h.ascending
  · rw [mem_ready_release, counter_release hlt', h.ready]
    by_cases hik : i = k
    · subst hik
      simp [hlt, hfresh, hcounter, Agenda.release]
    · simp [hik, Agenda.release]

@[simp] theorem taken_release (a : Agenda) (k : Nat) : (a.release k).taken = a.taken := rfl

@[simp] theorem taken_foldl_release (l : List Nat) (a : Agenda) :
    (l.foldl Agenda.release a).taken = a.taken := by
  induction l generalizing a with
  | nil => rfl
  | cons k rest ih => rw [List.foldl_cons, ih, taken_release]

/-- Telling some of the dependents, one after the other: the others are still to be told. -/
theorem Tracks.foldl_release {told untold : List Nat} (h : a.Tracks table (told ++ untold))
    (hnodup : (told ++ untold).Nodup) (hleft : ∀ k ∈ told, k < table.length ∧ k ∉ a.taken) :
    (told.foldl Agenda.release a).Tracks table untold := by
  induction told generalizing a with
  | nil => exact h
  | cons k rest ih =>
    obtain ⟨hk, hrest⟩ := List.nodup_cons.mp hnodup
    obtain ⟨hlt, hfresh⟩ := hleft k List.mem_cons_self
    exact ih (h.release hk hlt hfresh) hrest fun j hj => hleft j (.tail _ hj)

/-! ## Steps and runs -/

/-- **A step takes the first place that is ready** and tells its dependents. -/
theorem exists_of_step (hs : step table a = some b) : ∃ i rest, a.ready = i :: rest
    ∧ b = (dependents table i).foldl Agenda.release
      { a with ready := rest, taken := a.taken ++ [i] } := by
  unfold step at hs
  cases hready : a.ready with
  | nil => simp [hready] at hs
  | cons i rest => exact ⟨i, rest, rfl, by simpa [hready] using hs.symm⟩

/-- **What every step keeps, a run keeps.** -/
theorem run_induction {P : Agenda → Prop} (hstep : ∀ a b, P a → step table a = some b → P b) (n : Nat)
    (h : P a) : P (run table n a) := by
  induction n generalizing a with
  | zero => exact h
  | succ n ih =>
    unfold run
    cases hs : step table a with
    | none => exact h
    | some b => exact ih (hstep a b h hs)

/-- A step takes the least place that can be taken. -/
theorem isLeast_of_step (h : a.Tracks table []) (hs : step table a = some b) :
    ∃ i, IsLeast {i | Enabled table.length (Needs table) a.taken i} i
      ∧ b.taken = a.taken ++ [i] := by
  obtain ⟨i, rest, hready, rfl⟩ := exists_of_step hs
  refine ⟨i, ⟨h.mem_ready.mp (hready ▸ List.mem_cons_self), fun j hj => ?_⟩, taken_foldl_release _ _⟩
  have hj' : j ∈ i :: rest := hready ▸ h.mem_ready.mpr hj
  rcases List.mem_cons.mp hj' with rfl | hj'
  · exact le_rfl
  · exact ((List.pairwise_cons.mp (hready ▸ h.ascending)).1 j hj').le

/-- **A place is taken**: its dependents are left, and still to be told. -/
theorem Tracks.take (ht : IsTable table) (h : a.Tracks table []) {i : Nat} {rest : List Nat}
    (hready : a.ready = i :: rest) :
    Agenda.Tracks table (dependents table i) { a with ready := rest, taken := a.taken ++ [i] }
      ∧ ∀ k ∈ dependents table i, k < table.length ∧ k ∉ a.taken ++ [i] := by
  have hi : Enabled table.length (Needs table) a.taken i :=
    h.mem_ready.mp (hready ▸ List.mem_cons_self)
  obtain ⟨hirest, hrest⟩ := List.pairwise_cons.mp (hready ▸ h.ascending)
  have hcount : ∀ k, k < table.length → k ∉ a.taken →
      a.counter k = missing table (a.taken ++ [i]) k
        + if k ∈ dependents table i then 1 else 0 := by
    intro k hk hkt
    rw [h.waiting k hk hkt, missing_snoc ht hi.fresh]
    simp
  constructor
  · refine ⟨h.length_waiting, ?_, ?_, ?_, ?_, hrest, fun k => ?_⟩
    · exact List.nodup_append.mpr ⟨h.nodup, List.nodup_singleton i, by
        simpa using fun j hj (he : j = i) => hi.fresh (he ▸ hj)⟩
    · intro k hk
      rcases List.mem_append.mp hk with hk | hk
      · exact h.lt k hk
      · exact List.mem_singleton.mp hk ▸ hi.lt
    · intro k hk j hj
      rcases List.mem_append.mp hk with hk | hk
      · exact List.mem_append_left _ (h.closed k hk j hj)
      · obtain rfl := List.mem_singleton.mp hk
        exact List.mem_append_left _ (hi.met j hj)
    · intro k hk hkt
      exact hcount k hk fun hm => hkt (List.mem_append_left _ hm)
    · have hsplit : k ∈ rest ↔ k ∈ a.ready ∧ k ≠ i := by
        rw [hready, List.mem_cons]
        constructor
        · exact fun hk => ⟨.inr hk, (hirest k hk).ne'⟩
        · rintro ⟨rfl | hk, hne⟩
          · exact absurd rfl hne
          · exact hk
      rw [hsplit, h.ready, List.mem_append, List.mem_singleton]
      tauto
  · -- a dependent of `i` exists and is left, since what has been taken needed nothing that is left
    intro k hk
    have hik : i ∈ row table k := mem_dependents.mp hk
    refine ⟨?_, fun hkt => ?_⟩
    · by_contra hge
      rw [row_of_length_le (by omega)] at hik
      exact absurd hik List.not_mem_nil
    · rcases List.mem_append.mp hkt with hkt | hkt
      · exact hi.fresh (h.closed k hkt i hik)
      · exact ht.irrefl i (List.mem_singleton.mp hkt ▸ hik)

/-- **A step keeps the counters right.** -/
theorem tracks_step (ht : IsTable table) (h : a.Tracks table []) (hs : step table a = some b) :
    b.Tracks table [] := by
  obtain ⟨i, rest, hready, rfl⟩ := exists_of_step hs
  obtain ⟨htaken, hleft⟩ := h.take ht hready
  exact Tracks.foldl_release (by rwa [List.append_nil])
    (by simpa using nodup_dependents table i) hleft

/-- **A run keeps the counters right.** -/
theorem tracks_run (ht : IsTable table) (n : Nat) (h : a.Tracks table []) :
    (run table n a).Tracks table [] :=
  run_induction (fun _ _ h hs => tracks_step ht h hs) n h

/-- Telling a dependent raises no counter. -/
theorem counter_release_le (a : Agenda) (k i : Nat) : (a.release k).counter i ≤ a.counter i := by
  by_cases hk : k < a.waiting.length
  · rw [counter_release hk]
    split
    · next hik =>
      subst hik
      exact Nat.sub_le _ 1
    · exact le_rfl
  · simp [Agenda.release, counter, List.set_eq_of_length_le (Nat.le_of_not_lt hk)]

theorem counter_foldl_release_le (l : List Nat) (a : Agenda) (i : Nat) :
    (l.foldl Agenda.release a).counter i ≤ a.counter i := by
  induction l generalizing a with
  | nil => exact le_rfl
  | cons k rest ih => exact (ih (a.release k)).trans (counter_release_le a k i)

/-- What has been taken waits for nothing, by its counter too. -/
def Spent (a : Agenda) : Prop := ∀ i ∈ a.taken, a.counter i = 0

theorem spent_step (h : a.Tracks table []) (hspent : a.Spent) (hs : step table a = some b) :
    b.Spent := by
  obtain ⟨i, rest, hready, rfl⟩ := exists_of_step hs
  intro k hk
  have hzero : a.counter k = 0 := by
    rw [taken_foldl_release, List.mem_append, List.mem_singleton] at hk
    rcases hk with hk | rfl
    · exact hspent k hk
    · exact ((h.ready k).mp (hready ▸ List.mem_cons_self)).2.2
  exact Nat.le_zero.mp ((counter_foldl_release_le _ _ k).trans hzero.le)

theorem spent_run (ht : IsTable table) (n : Nat) (h : a.Tracks table []) (hspent : a.Spent) :
    (run table n a).Spent :=
  (run_induction (P := fun a => a.Tracks table [] ∧ a.Spent)
    (fun _ _ h hs => ⟨tracks_step ht h.1 hs, spent_step h.1 h.2 hs⟩) n ⟨h, hspent⟩).2

theorem greedy_step (h : a.Tracks table [])
    (hg : GreedyPrefix table.length (Needs table) a.taken) (hs : step table a = some b) :
    GreedyPrefix table.length (Needs table) b.taken := by
  obtain ⟨i, hi, htaken⟩ := isLeast_of_step h hs
  exact htaken ▸ hg.snoc hi

/-- **What a run takes is a greedy list.** -/
theorem greedy_run (ht : IsTable table) (n : Nat) (h : a.Tracks table [])
    (hg : GreedyPrefix table.length (Needs table) a.taken) :
    GreedyPrefix table.length (Needs table) (run table n a).taken :=
  (run_induction
    (P := fun a => a.Tracks table [] ∧ GreedyPrefix table.length (Needs table) a.taken)
    (fun _ _ h hs => ⟨tracks_step ht h.1 hs, greedy_step h.1 h.2 hs⟩) n ⟨h, hg⟩).2

/-- A run that takes as many places as there are takes them in the greedy order. -/
theorem greedyOrder_run (ht : IsTable table) (n : Nat)
    (hall : (run table n (start table)).taken.length = table.length) :
    GreedyOrder table.length (Needs table) (run table n (start table)).taken := by
  exact ⟨(tracks_run ht n (tracks_start table)).perm_range hall,
    greedy_run ht n (tracks_start table) GreedyPrefix.nil⟩

end Agenda

end Reconcile
