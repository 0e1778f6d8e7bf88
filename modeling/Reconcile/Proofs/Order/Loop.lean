import Mathlib.Data.Set.Card
import Reconcile.Proofs.Order.Existence

/-!
# Proofs/Order/Loop — the loop that takes changes one by one

A change may list another one twice, and wait for it by a reference as well; the ordering counts it
once.  So, whenever the loop comes round, the counter of a change that is left is the number of the
changes left that it waits for, and those with counter zero are ready, each once
(`Agenda.Balanced`).  Inside a round, the dependents of the change taken are told one after the
other (`Agenda.Tells`), and none of them has counter zero when it is told, so that the truncated
subtraction of `Agenda.release` never truncates.

Main fact: `runsSafely_of_batch` — this holds in every round, there are no more rounds than changes,
and the number of rounds that the ordering allows for is enough for the loop to end by itself.
-/

namespace Reconcile

namespace Agenda

/-! ## Rounds -/

/-- **An agenda that the loop comes to** after a number of rounds. -/
inductive Reaches (table : List (List Nat)) : Nat → Agenda → Prop
  | start : Reaches table 0 (start table)
  | step {k : Nat} {a b : Agenda} (h : Reaches table k a) (hs : step table a = some b) :
      Reaches table (k + 1) b

/-- **A round from `a` is about to tell the change at place `k`**: a change is taken, its dependents
in front of `k` have been told, and the agenda is `b` by then. -/
inductive Tells (table : List (List Nat)) (a : Agenda) (k : Nat) : Agenda → Prop
  | intro {i : Nat} {rest told untold : List Nat} (hready : a.ready = i :: rest)
      (hdependents : dependents table i = told ++ k :: untold) :
      Tells table a k (told.foldl release { a with ready := rest, taken := a.taken ++ [i] })

variable {table : List (List Nat)} {a b : Agenda} {k : Nat}

/-- Whom a round is about to tell, it tells, and goes on from there. -/
theorem Tells.exists_step (h : Tells table a k b) :
    ∃ untold : List Nat, step table a = some (untold.foldl release (b.release k)) := by
  obtain @⟨i, rest, told, untold, hready, hdependents⟩ := h
  refine ⟨untold, ?_⟩
  unfold step
  rw [hready]
  dsimp only
  rw [hdependents, List.foldl_append, List.foldl_cons]

/-- **Whoever is told is left, and still waits for something.** -/
theorem Tracks.tells (ht : IsTable table) (h : a.Tracks table []) (htells : Tells table a k b) :
    k < table.length ∧ k ∉ b.taken ∧ 0 < b.counter k := by
  obtain @⟨i, rest, told, untold, hready, hdependents⟩ := htells
  obtain ⟨htaken, hleft⟩ := h.take ht hready
  obtain ⟨hlt, hfresh⟩ := hleft k (hdependents ▸ List.mem_append_right _ List.mem_cons_self)
  have hb := Tracks.foldl_release (hdependents ▸ htaken) (hdependents ▸ nodup_dependents table i)
    fun j hj => hleft j (hdependents ▸ List.mem_append_left _ hj)
  have hfresh' : k ∉ (told.foldl Agenda.release
      { a with ready := rest, taken := a.taken ++ [i] }).taken := by
    rwa [taken_foldl_release]
  refine ⟨hlt, hfresh', ?_⟩
  rw [hb.waiting k hlt hfresh', if_pos List.mem_cons_self]
  exact Nat.succ_pos _

/-- **In every round the counters are right**, and one place has been taken in each. -/
theorem Reaches.tracks (ht : IsTable table) (h : Reaches table k a) :
    a.Tracks table [] ∧ a.taken.length = k := by
  induction h with
  | start => exact ⟨tracks_start table, rfl⟩
  | step _ hs ih =>
    obtain ⟨htracks, hlength⟩ := ih
    obtain ⟨i, -, htaken⟩ := isLeast_of_step htracks hs
    exact ⟨tracks_step ht htracks hs, by rw [htaken, List.length_append, hlength]; rfl⟩

/-- A run goes from round to round. -/
theorem Reaches.run (h : Reaches table k a) (n : Nat) :
    ∃ j, Reaches table j (Agenda.run table n a) := by
  refine run_induction (P := fun b => ∃ j, Reaches table j b) (fun a b ha hs => ?_) n ⟨k, h⟩
  obtain ⟨j, hj⟩ := ha
  exact ⟨j + 1, hj.step hs⟩

/-- **As many rounds as there are places are enough**: no place is ready behind them. -/
theorem step_run_eq_none (ht : IsTable table) :
    step table (run table table.length (start table)) = none := by
  have htracks := tracks_run ht table.length (tracks_start table)
  rw [Option.eq_none_iff_forall_ne_some]
  intro b hs
  obtain ⟨i, rest, hready, -⟩ := exists_of_step hs
  rcases length_taken_run table table.length (start table) with hall | hnone
  · obtain ⟨hlt, hleft, -⟩ := (htracks.ready i).mp (hready ▸ List.mem_cons_self)
    have hperm := htracks.perm_range (by simpa [start] using hall)
    exact hleft (hperm.mem_iff.mpr (List.mem_range.mpr hlt))
  · exact absurd (hready.symm.trans hnone) (List.cons_ne_nil i rest)

/-- The places that are missing, as a set. -/
theorem missing_eq_ncard (ht : IsTable table) (taken : List Nat) (i : Nat) :
    missing table taken i = {j | Needs table i j ∧ j ∉ taken}.ncard := by
  have hset : {j | Needs table i j ∧ j ∉ taken}
      = ↑((row table i).filter fun j => decide (j ∉ taken)).toFinset := by
    ext j
    simp [Needs]
  rw [hset, Set.ncard_coe_finset, List.toFinset_card_of_nodup ((ht.nodup i).filter _), missing,
    List.countP_eq_length_filter]

end Agenda

/-! ## The loop over a batch -/

/-- **The agenda of a batch is in balance**, as it is whenever the loop comes round. -/
structure Agenda.Balanced (changes : List Change) (a : Agenda) : Prop where
  counter : ∀ i < changes.length, i ∉ a.taken →
    a.counter i = {j | WaitsFor changes i j ∧ j ∉ a.taken}.ncard
  ready : ∀ i, i ∈ a.ready ↔ i < changes.length ∧ i ∉ a.taken ∧ a.counter i = 0
  nodup_ready : a.ready.Nodup
  nodup_taken : a.taken.Nodup
  lt : ∀ i ∈ a.taken, i < changes.length
  told : ∀ k b, Tells (dependencyTable changes) a k b →
    k < changes.length ∧ k ∉ b.taken ∧ 0 < b.counter k
      ∧ ∃ untold : List Nat,
        step (dependencyTable changes) a = some (untold.foldl release (b.release k))

/-- **The loop over a batch is safe**: in every round the agenda is in balance, every round takes
one change more, and the ordering of a batch that passes the checks is read off the round in which
no change is ready any more. -/
structure RunsSafely (changes : List Change) : Prop where
  round : ∀ k a, Agenda.Reaches (dependencyTable changes) k a →
    a.Balanced changes ∧ a.taken.length = k ∧ k ≤ changes.length
  ends : ∃ k a, Agenda.Reaches (dependencyTable changes) k a
    ∧ Agenda.step (dependencyTable changes) a = none
    ∧ ((changes.map (·.id)).Nodup → (∀ c ∈ changes, ∀ d ∈ c.dependsOn, d ∈ changes.map (·.id)) →
      executionOrder changes = if a.taken.length = changes.length
        then .ok (a.taken.map (idAt changes))
        else .error (cycleFault changes (dependencyTable changes) a))

theorem Agenda.Tracks.balanced {changes : List Change} {a : Agenda}
    (h : a.Tracks (dependencyTable changes) []) : a.Balanced changes := by
  have ht := isTable_dependencyTable changes
  have hlength := length_dependencyTable changes
  refine ⟨fun i hi hleft => ?_, fun i => ?_, h.ascending.imp fun hlt => hlt.ne, h.nodup,
    fun i hi => hlength ▸ h.lt i hi, fun k b htells => ?_⟩
  · rw [h.waiting i (hlength ▸ hi) hleft, Agenda.missing_eq_ncard ht]
    simp only [mem_dependencyTable, List.not_mem_nil, if_false, Nat.add_zero]
  · rw [h.ready, hlength]
  · obtain ⟨hlt, hleft, hpos⟩ := h.tells ht htells
    exact ⟨hlength ▸ hlt, hleft, hpos, htells.exists_step⟩

/-- **The loop over a batch is safe.** -/
theorem runsSafely_of_batch (changes : List Change) : RunsSafely changes where
  round k a h := by
    obtain ⟨htracks, hlength⟩ := h.tracks (isTable_dependencyTable changes)
    have hle := htracks.length_taken_le
    rw [hlength, length_dependencyTable] at hle
    exact ⟨htracks.balanced, hlength, hle⟩
  ends := by
    have hstart : Agenda.Reaches (dependencyTable changes) 0 (.start (dependencyTable changes)) :=
      .start
    obtain ⟨k, hreaches⟩ := hstart.run (dependencyTable changes).length
    refine ⟨k, _, hreaches, Agenda.step_run_eq_none (isTable_dependencyTable changes),
      fun hnodup hmem => ?_⟩
    unfold executionOrder
    rw [firstRepeated?_eq_none.mpr hnodup, danglingDependency?_eq_none.mpr hmem,
      length_dependencyTable]

/-- An api that waits for a portal in three ways, and that lists itself too. -/
def thriceAwaitedBatch : List Change := [
  { id := "1:c:api:orders", kind := "api", ref := "orders", action := .create
    references := Dict.singleton "portal_id" { target := "docs", id := unknownId }
    dependsOn := ["2:c:portal:docs", "1:c:api:orders", "2:c:portal:docs"] },
  { id := "2:c:portal:docs", kind := "portal", ref := "docs", action := .create }]

/-- The api waits for one change, so that telling it once makes it ready. -/
theorem runsSafely_thriceAwaitedBatch :
    Agenda.start (dependencyTable thriceAwaitedBatch) = ⟨[1, 0], [1], []⟩
      ∧ Agenda.step (dependencyTable thriceAwaitedBatch) ⟨[1, 0], [1], []⟩ = some ⟨[0, 0], [0], [1]⟩
      ∧ executionOrder thriceAwaitedBatch = .ok ["2:c:portal:docs", "1:c:api:orders"]
      ∧ RunsSafely thriceAwaitedBatch :=
  ⟨by decide +kernel, by decide +kernel, rfl, runsSafely_of_batch thriceAwaitedBatch⟩

end Reconcile
