import Reconcile.Proofs.Numbering.Composition
import Reconcile.Proofs.Order.Existence
import Reconcile.Proofs.Order.Sequence

/-!
# Proofs/Order/Settled — a numbered plan is ordered as it stands

A batch in which changes wait for none but earlier ones has the order in which it stands
(`executionOrder_eq_ids`).  Where no two creates make the same resource, a plan that was numbered in
its execution order is such a batch: whatever waits afterwards has waited before
(`Plan.Renumbered.waitsFor_lt`).  Main fact: `settled_of_renumber` — ordering and numbering such a
plan once more changes nothing.
-/

namespace Reconcile

/-- **A batch in which changes wait for none but earlier ones has the order in which it stands.** -/
theorem executionOrder_eq_ids {changes : List Change} (hnodup : (changes.map (·.id)).Nodup)
    (hmem : ∀ c ∈ changes, ∀ d ∈ c.dependsOn, d ∈ changes.map (·.id))
    (hearlier : ∀ i j, WaitsFor changes i j → j < i) :
    executionOrder changes = .ok (changes.map (·.id)) := by
  have horderable : Orderable changes := ⟨hnodup, hmem, id, hearlier⟩
  obtain ⟨order, horder⟩ := exists_executionOrder_iff.mpr horderable
  obtain ⟨places, hgreedy, rfl⟩ := (ordering_of_ok horder).greedy
  rw [horder, hgreedy.unique (greedyOrder_range hearlier), map_idAt_range]

/-- Whether creates are told apart by what they make does not depend on their order. -/
theorem CreatesOnce.perm {as bs : List Change} (h : CreatesOnce as) (hperm : as.Perm bs) :
    CreatesOnce bs := ((hperm.filter _).map _).nodup_iff.mp h

namespace Plan.Renumbered

variable {p q : Plan} {order : List String} {rename : String → String}

/-! ## The changes of the plan and of the numbered one -/

/-- A renaming of all identifiers that numbers those of the plan. -/
theorem exists_perm_eq (h : p.Renumbered order rename q) :
    ∃ move : Equiv.Perm String, ∀ id ∈ p.ids, move id = rename id := by
  have hnodup : (p.ids.map rename).Nodup := h.nodup_map_rename h.nodup fun _ hid => hid
  obtain ⟨move, hmove⟩ := exists_perm_map_eq h.nodup hnodup (List.length_map _).symm
  exact ⟨move, fun id hid => List.map_inj_left.mp hmove id hid⟩

variable {move : String → String}

/-- A change of the plan and the same one numbered are alike. -/
theorem alike_renamed (h : p.Renumbered order rename q) (hmove : ∀ id ∈ p.ids, move id = rename id)
    {c : Change} (hc : c ∈ p.changes) : c.Alike move (c.renamed rename) where
  id := (hmove c.id (List.mem_map_of_mem hc)).symm
  bare := rfl
  dependsOn d := by
    change d ∈ c.dependsOn.map rename ↔ d ∈ c.dependsOn.map move
    rw [List.map_congr_left fun x hx => hmove x (h.known c hc x hx)]

/-- A numbered plan has the changes of the plan, shuffled. -/
theorem shuffled_changes (h : p.Renumbered order rename q)
    (hmove : ∀ id ∈ p.ids, move id = rename id) :
    Shuffled (Change.Alike move) p.changes q.changes := by
  refine ⟨p.changes.map (Change.renamed rename), ?_, h.perm_changes.symm⟩
  rw [List.forall₂_map_right_iff, List.forall₂_same]
  exact fun c hc => h.alike_renamed hmove hc

theorem createsOnce (h : p.Renumbered order rename q) (honce : CreatesOnce p.changes) :
    CreatesOnce q.changes := by
  have hrenamed : CreatesOnce (p.changes.map (Change.renamed rename)) := honce.map fun _ => rfl
  exact hrenamed.perm h.perm_changes.symm

/-! ## Waiting -/

/-- **Numbered in an order in which they can run, changes wait for none but earlier ones.** -/
theorem waitsFor_lt (h : p.Renumbered order rename q) (hordering : Ordering p.changes order)
    (honce : CreatesOnce p.changes) {i j : Nat} (hwaits : WaitsFor q.changes i j) : j < i := by
  obtain ⟨move, hmove⟩ := h.exists_perm_eq
  have ⟨_, c, d, hc, hd, _⟩ := hwaits
  obtain ⟨a, ha, hi, rfl⟩ := h.exists_getElem? hc
  obtain ⟨b, hb, hj, rfl⟩ := h.exists_getElem? hd
  obtain ⟨k, hk⟩ := List.mem_iff_getElem?.mp ha
  obtain ⟨l, hl⟩ := List.mem_iff_getElem?.mp hb
  have hbefore : WaitsFor p.changes k l :=
    waitsFor_of_shuffled move.injective (h.shuffled_changes hmove) h.nodup (h.createsOnce honce)
      hk hc hl hd (h.alike_renamed hmove ha) (h.alike_renamed hmove hb) hwaits
  calc j = order.idxOf b.id := (h.place_eq_idxOf hj).symm
    _ < order.idxOf a.id := hordering.idxOf_lt hk hl hbefore
    _ = i := h.place_eq_idxOf hi

/-- Whatever the changes of a numbered plan list is in it. -/
theorem mem_ids (h : p.Renumbered order rename q) {c : Change} (hc : c ∈ q.changes) {d : String}
    (hd : d ∈ c.dependsOn) : d ∈ q.ids := by
  obtain ⟨b, hb, rfl⟩ := List.mem_map.mp (h.perm_changes.mem_iff.mp hc)
  obtain ⟨old, hold, rfl⟩ := List.mem_map.mp hd
  obtain ⟨e, he, rfl⟩ := List.mem_map.mp (h.known b hb old hold)
  exact List.mem_map_of_mem (h.perm_changes.mem_iff.mpr (List.mem_map_of_mem he))

end Plan.Renumbered

/-- **Ordering and numbering a numbered plan changes nothing.**  Where no two creates make the same
resource, a plan that was numbered in its execution order has its own order for execution order, and
numbered in it stays what it is.  Positions are numbers of 64 bits, so its identifiers can be read
again while there are fewer changes. -/
theorem settled_of_renumber {p q : Plan} {order : List String} (honce : CreatesOnce p.changes)
    (horder : executionOrder p.changes = .ok order) (hq : p.renumber order = .ok q) :
    executionOrder q.changes = .ok q.order
      ∧ (p.changes.length < ChangeId.positionLimit → q.renumber q.order = .ok q) := by
  obtain ⟨rename, h⟩ := Plan.renumbered_of_ok hq
  have hordering := ordering_of_ok horder
  refine ⟨?_, fun hfits => ?_⟩
  · rw [h.order]
    exact executionOrder_eq_ids h.nodup_ids (fun c hc d hd => h.mem_ids hc hd) fun i j hwaits =>
      h.waitsFor_lt hordering honce hwaits
  · obtain ⟨hnumberable, rfl⟩ := Plan.renumber_eq_ok_iff.mp hq
    exact Plan.renumber_eq_ok_iff.mpr ⟨hnumberable.numbered hnumberable hfits,
      (Plan.numbered_numbered hnumberable hnumberable hfits).symm⟩

/-- A version that waits for its api by its parent, an update of a portal that refers to a strategy
and lists itself, and behind them the creates of both. -/
def impatientPlan : Plan where
  metadata := ⟨Plan.formatVersion, ⟨0, 0⟩, Plan.defaultGenerator, .apply⟩
  changes := [
    { id := "10:c:api_version:v1", kind := "api_version", ref := "v1", action := .create,
      parent := some { kind := "api", ref := "orders" } },
    { id := "9:u:portal:main", kind := "portal", ref := "main", action := .update,
      references := Dict.singleton "auth_strategy_ids"
        { targets := ["keys"], ids := [unknownId], isList := true },
      dependsOn := ["9:u:portal:main"] },
    { id := "8:c:api:orders", kind := "api", ref := "orders", action := .create },
    { id := "7:c:application_auth_strategy:keys", kind := "application_auth_strategy",
      ref := "keys", action := .create, dependsOn := ["10:c:api_version:v1"] }]
  warnings := [⟨"9:u:portal:main", "left for execution"⟩]

theorem settled_impatientPlan : ∃ q, CreatesOnce impatientPlan.changes
    ∧ executionOrder impatientPlan.changes = .ok ["8:c:api:orders", "10:c:api_version:v1",
      "7:c:application_auth_strategy:keys", "9:u:portal:main"]
    ∧ impatientPlan.renumber ["8:c:api:orders", "10:c:api_version:v1",
      "7:c:application_auth_strategy:keys", "9:u:portal:main"] = .ok q
    ∧ q.order = ["1:c:api:orders", "2:c:api_version:v1", "3:c:application_auth_strategy:keys",
      "4:u:portal:main"]
    ∧ executionOrder q.changes = .ok q.order ∧ q.renumber q.order = .ok q := by
  have honce : CreatesOnce impatientPlan.changes := by unfold CreatesOnce; decide
  obtain ⟨hordered, hnumbered⟩ := settled_of_renumber honce rfl rfl
  exact ⟨_, honce, rfl, rfl, rfl, hordered, hnumbered (by decide +kernel)⟩

end Reconcile
