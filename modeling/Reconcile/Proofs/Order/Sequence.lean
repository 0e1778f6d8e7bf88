import Reconcile.Proofs.Numbering
import Mathlib.Logic.Relation

/-!
# Proofs/Order/Sequence — in a numbered plan dependencies come first

A batch that is numbered in its execution order has every change behind the other changes that it
lists (`Plan.Sequenced`), so no circle leads through two or more of its changes.  One that lists
itself waits for nothing by that, and is numbered like any other.  Main fact:
`sequenced_of_renumber`.
-/

namespace Reconcile

namespace Plan

/-- The change with an identifier stands before a place. -/
def StandsBefore (p : Plan) (id : String) (k : Nat) : Prop :=
  ∃ j < k, ∃ b, p.changes[j]? = some b ∧ b.id = id

/-- A change of a plan lists another one. -/
def Lists (p : Plan) (a b : String) : Prop :=
  a ≠ b ∧ ∃ e ∈ p.changes, e.id = a ∧ b ∈ e.dependsOn

/-- **A plan in sequence**: identifiers are distinct and tell the places of their changes, and
whatever else a change lists stands before it. -/
structure Sequenced (p : Plan) : Prop where
  order : p.order = p.ids
  nodup : p.ids.Nodup
  numbered : ∀ (k : Nat) e, p.changes[k]? = some e →
    ∃ id : ChangeId, id.position = k + 1 ∧ id.text = e.id
  earlier : ∀ (k : Nat) e, p.changes[k]? = some e → ∀ d ∈ e.dependsOn, d ≠ e.id →
    p.StandsBefore d k

namespace Renumbered

variable {p q : Plan} {order : List String} {rename : String → String}

theorem nodup_ids (h : p.Renumbered order rename q) : q.ids.Nodup := by
  have hids : q.ids.Perm (p.ids.map rename) := by
    have hperm := h.perm_changes.map Change.id
    rw [List.map_map] at hperm
    rw [ids, ids, List.map_map]
    exact hperm
  exact hids.nodup_iff.mpr (h.nodup_map_rename h.nodup fun _ hid => hid)

/-- The identifier at a place tells the place. -/
theorem exists_text_eq (h : p.Renumbered order rename q) {k : Nat} {e : Change}
    (he : q.changes[k]? = some e) : ∃ id : ChangeId, id.position = k + 1 ∧ id.text = e.id := by
  obtain ⟨b, -, hk, rfl⟩ := h.exists_getElem? he
  obtain ⟨id, -, hid⟩ := Option.map_eq_some_iff.mp (h.moved k b.id hk)
  exact ⟨{ id with position := k + 1 }, rfl, hid⟩

/-- A change of the numbered plan stands where the order lists it. -/
theorem place_eq_idxOf (h : p.Renumbered order rename q) {k : Nat} {b : Change}
    (hk : order[k]? = some b.id) : order.idxOf b.id = k := by
  obtain ⟨hlt, hget⟩ := List.getElem?_eq_some_iff.mp hk
  rw [← hget]
  exact (h.perm.nodup_iff.mpr h.nodup).idxOf_getElem k hlt

/-- **Whatever else a change lists stands before it**, where the order is one in which the batch can
run. -/
theorem standsBefore (h : p.Renumbered order rename q) (hordering : Ordering p.changes order)
    {k : Nat} {e : Change} (he : q.changes[k]? = some e) {d : String} (hd : d ∈ e.dependsOn)
    (hne : d ≠ e.id) : q.StandsBefore d k := by
  obtain ⟨b, hb, hk, rfl⟩ := h.exists_getElem? he
  obtain ⟨old, hold, rfl⟩ := List.mem_map.mp hd
  obtain ⟨b', hb', rfl⟩ := List.mem_map.mp (h.known b hb old hold)
  have hother : b'.id ≠ b.id := fun heq => hne (congrArg rename heq)
  refine ⟨order.idxOf b'.id, ?_, b'.renamed rename, h.getElem?_idxOf hb', rfl⟩
  rw [← h.place_eq_idxOf hk]
  exact hordering.idxOf_lt_of_mem_dependsOn hb hold hother

theorem sequenced (h : p.Renumbered order rename q) (hordering : Ordering p.changes order) :
    q.Sequenced where
  order := h.order
  nodup := h.nodup_ids
  numbered _ _ he := h.exists_text_eq he
  earlier _ _ he _ hd hne := h.standsBefore hordering he hd hne

end Renumbered

end Plan

/-- **Whatever changes list other ones, however many in a row, the last one runs first.** -/
theorem Ordering.idxOf_lt_of_lists {p : Plan} {order : List String}
    (h : Ordering p.changes order) {a b : String} (hab : Relation.TransGen p.Lists a b) :
    order.idxOf b < order.idxOf a := by
  induction hab with
  | single hlists =>
    obtain ⟨hne, e, he, rfl, hd⟩ := hlists
    exact h.idxOf_lt_of_mem_dependsOn he hd hne.symm
  | tail _ hlists ih =>
    obtain ⟨hne, e, he, rfl, hd⟩ := hlists
    exact (h.idxOf_lt_of_mem_dependsOn he hd hne.symm).trans ih

/-- **A batch that is numbered in its execution order is in sequence**, and no circle leads through
two or more of its changes. -/
theorem sequenced_of_renumber {p q : Plan} {order : List String}
    (horder : executionOrder p.changes = .ok order) (hq : p.renumber order = .ok q) :
    q.Sequenced ∧ ∀ id, ¬ Relation.TransGen p.Lists id id := by
  have hordering := ordering_of_ok horder
  obtain ⟨rename, hrenumbered⟩ := Plan.renumbered_of_ok hq
  refine ⟨hrenumbered.sequenced hordering, fun id hcircle => ?_⟩
  exact (hordering.idxOf_lt_of_lists hcircle).ne rfl

/-- A version that lists its api, twice, and itself. -/
def repetitivePlan : Plan where
  metadata := ⟨Plan.formatVersion, ⟨0, 0⟩, Plan.defaultGenerator, .apply⟩
  changes := [
    { id := "1:c:api_version:v1", kind := "api_version", ref := "v1", action := .create,
      dependsOn := ["2:c:api:orders", "1:c:api_version:v1", "2:c:api:orders"] },
    { id := "2:c:api:orders", kind := "api", ref := "orders", action := .create }]

theorem sequenced_repetitivePlan : ∃ order q,
    executionOrder repetitivePlan.changes = .ok order ∧ repetitivePlan.renumber order = .ok q
      ∧ q.changes.map (fun e => (e.id, e.dependsOn))
        = [("1:c:api:orders", []),
          ("2:c:api_version:v1", ["1:c:api:orders", "2:c:api_version:v1", "1:c:api:orders"])]
      ∧ q.Sequenced ∧ ∀ id, ¬ Relation.TransGen repetitivePlan.Lists id id := by
  refine ⟨_, _, rfl, rfl, by decide +kernel, sequenced_of_renumber rfl rfl⟩

/-- A create that lists itself. -/
def selfListingPlan : Plan where
  metadata := ⟨Plan.formatVersion, ⟨0, 0⟩, Plan.defaultGenerator, .apply⟩
  changes := [
    { id := "1:c:api:orders", kind := "api", ref := "orders", action := .create,
      dependsOn := ["1:c:api:orders"] }]

/-- **A change that lists itself is ordered and numbered**, and does not stand before itself. -/
theorem not_standsBefore_selfListingPlan : ∃ order q,
    executionOrder selfListingPlan.changes = .ok order ∧ selfListingPlan.renumber order = .ok q
      ∧ ¬ ∀ (k : Nat) e, q.changes[k]? = some e → ∀ d ∈ e.dependsOn, q.StandsBefore d k := by
  refine ⟨_, _, rfl, rfl, fun h => ?_⟩
  obtain ⟨j, hj, -⟩ := h 0 _ rfl "1:c:api:orders" List.mem_cons_self
  exact Nat.not_lt_zero j hj

end Reconcile
