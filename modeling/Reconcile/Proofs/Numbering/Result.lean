import Mathlib.Data.Set.Function
import Reconcile.Proofs.Numbering

/-!
# Proofs/Numbering/Result — the numbered plan, written out

A plan that can be numbered in an order has one result: its changes as the order lists them, with
the position of every identifier replaced by its place, and the summary computed anew
(`Plan.numbered`).

* `Plan.renumber_eq_ok_iff` — numbering gives this plan, where it gives one.
* `Plan.numberedBy_of_renumber` — what that means for each part of the plan.
-/

namespace Reconcile

namespace Plan

/-- An identifier with its place in an order for its position. -/
def numberedId (order : List String) (id : String) : String :=
  (ChangeId.moved? id (order.idxOf id + 1)).getD id

/-- **The plan in an order, numbered.** -/
def numbered (p : Plan) (order : List String) : Plan :=
  let changes := (p.listed order).map (Change.renamed (numberedId order))
  { metadata := p.metadata
    changes := changes
    order := order.map (numberedId order)
    summary := .ofChanges changes
    warnings := p.warnings.map (Warning.renamed (numberedId order)) }

/-! ## The changes that an order lists -/

section Listed

variable {p : Plan} {order : List String}

/-- Where identifiers are distinct, a change is found under its own. -/
theorem change?_id (hnodup : p.ids.Nodup) {c : Change} (hc : c ∈ p.changes) :
    p.change? c.id = some c := by
  obtain ⟨b, hmem, hb, hid⟩ := exists_change? (List.mem_map_of_mem hc)
  rw [hb, List.inj_on_of_nodup_map hnodup hmem hc hid]

/-- An order lists the changes with its identifiers. -/
theorem map_id_listed (horder : ∀ id ∈ order, id ∈ p.ids) :
    (p.listed order).map (·.id) = order := by
  induction order with
  | nil => rfl
  | cons id rest ih =>
    obtain ⟨c, -, hc, hcid⟩ := exists_change? (horder id List.mem_cons_self)
    rw [listed, List.filterMap_cons_some hc, List.map_cons, hcid]
    exact congrArg _ (ih fun id hid => horder id (.tail _ hid))

/-- The changes that an order lists are renamed as the order is. -/
theorem map_id_renamed_listed (horder : ∀ id ∈ order, id ∈ p.ids) (rename : String → String) :
    ((p.listed order).map (Change.renamed rename)).map (·.id) = order.map rename := by
  have hids := map_id_listed horder
  calc ((p.listed order).map (Change.renamed rename)).map (·.id)
      = ((p.listed order).map (·.id)).map rename := by
        rw [List.map_map, List.map_map]
        rfl
    _ = order.map rename := congrArg _ hids

/-- A list of changes of the plan is what the order of their identifiers lists. -/
theorem eq_listed (hnodup : p.ids.Nodup) {changes : List Change}
    (hsub : ∀ c ∈ changes, c ∈ p.changes) : p.listed (changes.map (·.id)) = changes := by
  rw [listed, List.filterMap_map]
  exact (List.filterMap_congr fun c hc => change?_id hnodup (hsub c hc)).trans List.filterMap_some

/-- **An order of all changes lists each of them once.** -/
theorem perm_listed (hnodup : p.ids.Nodup) (hperm : order.Perm p.ids) :
    (p.listed order).Perm p.changes := by
  have hall : p.listed p.ids = p.changes := eq_listed hnodup fun c hc => hc
  exact hall ▸ hperm.filterMap p.change?

/-- Changes that are those of an order, renamed one by one, are the changes it lists, renamed. -/
theorem eq_map_listed (hnodup : p.ids.Nodup) {rename : String → String} {changes : List Change}
    (h : List.Forall₂ (fun id c => ∃ b ∈ p.changes, b.id = id ∧ c = b.renamed rename)
      order changes) : changes = (p.listed order).map (Change.renamed rename) := by
  induction h with
  | nil => rfl
  | cons hc _ ih =>
    obtain ⟨b, hb, rfl, rfl⟩ := hc
    rw [listed, List.filterMap_cons_some (change?_id hnodup hb), List.map_cons, ih, listed]

end Listed

/-! ## What numbering gives -/

section Result

variable {p q : Plan} {order : List String} {rename : String → String}

/-- An identifier that is numbered is moved to its place. -/
theorem Numberable.moved?_idxOf (h : p.Numberable order) {id : String} (hid : id ∈ p.ids) :
    ChangeId.moved? id (order.idxOf id + 1) = some (numberedId order id) := by
  obtain ⟨c, hc⟩ := Option.isSome_iff_exists.mp (h.readable id hid)
  rw [numberedId, ChangeId.moved?, hc, Option.map_some, Option.getD_some]

/-- **Numbered identifiers are different where the identifiers are.** -/
theorem Numberable.injOn_numberedId (h : p.Numberable order) :
    Set.InjOn (numberedId order) {id | id ∈ p.ids} := by
  intro a ha b hb hab
  have hplace : order.idxOf a + 1 = order.idxOf b + 1 :=
    ChangeId.position_eq_of_moved? (h.moved?_idxOf ha) (hab ▸ h.moved?_idxOf hb)
  exact (List.idxOf_inj (h.perm.mem_iff.mpr ha)).mp (Nat.succ.inj hplace)

theorem renamed_congr {f g : String → String} {c : Change} (hid : f c.id = g c.id)
    (hdeps : ∀ d ∈ c.dependsOn, f d = g d) : c.renamed f = c.renamed g := by
  rw [Change.renamed, Change.renamed, hid, List.map_congr_left hdeps]

/-- An identifier stands in a numbered plan with its place in the order. -/
theorem Renumbered.numberedId_eq (h : p.Renumbered order rename q) {id : String}
    (hid : id ∈ p.ids) : numberedId order id = rename id := by
  have hget : order[order.idxOf id]? = some id :=
    List.getElem?_idxOf (h.perm.mem_iff.mpr hid)
  rw [numberedId, h.moved _ id hget, Option.getD_some]

theorem metadata_summary_of_renumber (h : p.renumber order = .ok q) :
    q.metadata = p.metadata ∧ q.summary = .ofChanges q.changes := by
  obtain ⟨_, _, _, _, -, -, -, -, rfl⟩ := stages_of_renumber h
  exact ⟨rfl, rfl⟩

/-- **Numbering gives the plan in the order, numbered.** -/
theorem eq_numbered (h : p.renumber order = .ok q) : q = p.numbered order := by
  obtain ⟨rename, hq⟩ := renumbered_of_ok h
  obtain ⟨hmetadata, hsummary⟩ := metadata_summary_of_renumber h
  have hlisted := perm_listed hq.nodup hq.perm
  have hchanges : q.changes = (p.listed order).map (Change.renamed (numberedId order)) := by
    refine (eq_map_listed hq.nodup hq.changes).trans (List.map_congr_left fun c hc => ?_)
    have hc' : c ∈ p.changes := hlisted.mem_iff.mp hc
    exact (renamed_congr (hq.numberedId_eq (List.mem_map_of_mem hc'))
      fun d hd => hq.numberedId_eq (hq.known c hc' d hd)).symm
  have horder : q.order = order.map (numberedId order) := by
    rw [hq.order, hchanges]
    exact map_id_renamed_listed (fun id hid => hq.perm.mem_iff.mp hid) _
  have hwarnings : q.warnings = p.warnings.map (Warning.renamed (numberedId order)) := by
    refine hq.warnings.trans (List.map_congr_left fun w hw => ?_)
    rw [Warning.renamed, Warning.renamed, hq.numberedId_eq (hq.warned w hw)]
  obtain ⟨metadata, changes, qorder, summary, warnings⟩ := q
  dsimp only at hmetadata hsummary hchanges horder hwarnings
  rw [hmetadata, hsummary, hchanges, horder, hwarnings]
  rfl

/-- **Numbering succeeds on the plans that can be numbered, with this result.** -/
theorem renumber_eq_ok_iff : p.renumber order = .ok q
    ↔ p.Numberable order ∧ q = p.numbered order := by
  constructor
  · exact fun h => ⟨exists_renumber_iff.mp ⟨q, h⟩, eq_numbered h⟩
  · rintro ⟨hnumberable, rfl⟩
    obtain ⟨q, hq⟩ := exists_renumber_iff.mpr hnumberable
    exact eq_numbered hq ▸ hq

end Result

/-! ## The parts of the numbered plan -/

/-- **The plan `q` is the plan `p` in an order, with places for the positions in its
identifiers.** -/
structure NumberedBy (p : Plan) (order : List String) (q : Plan) : Prop where
  placed : ∀ k id, order[k]? = some id → ∃ c, ChangeId.parse? id = some c
    ∧ numberedId order id = { c with position := k + 1 }.text
  kept : ∀ k id, order[k]? = some id → ∃ position tail : String, ':' ∉ position.toList
    ∧ id = position ++ ":" ++ tail ∧ numberedId order id = toString (k + 1) ++ ":" ++ tail
  injective : Set.InjOn (numberedId order) {id | id ∈ order}
  listed_perm : (p.listed order).Perm p.changes
  listed_ids : (p.listed order).map (·.id) = order
  known : ∀ c ∈ p.changes, ∀ d ∈ c.dependsOn, d ∈ order
  warned : ∀ w ∈ p.warnings, w.changeId ∈ order
  changes : q.changes = (p.listed order).map (Change.renamed (numberedId order))
  ordered : q.order = order.map (numberedId order)
  warnings : q.warnings = p.warnings.map (Warning.renamed (numberedId order))
  metadata : q.metadata = p.metadata
  summary : q.summary = .ofChanges q.changes

/-- **Numbering replaces the positions in the identifiers of a plan by the places in the order,
everywhere, and nothing else**; different identifiers stay different. -/
theorem numberedBy_of_renumber {p q : Plan} {order : List String} (h : p.renumber order = .ok q) :
    p.NumberedBy order q := by
  obtain ⟨hnumberable, rfl⟩ := renumber_eq_ok_iff.mp h
  have hmem : ∀ {id}, id ∈ order ↔ id ∈ p.ids := hnumberable.perm.mem_iff
  have hplaced : ∀ k id, order[k]? = some id → ∃ c, ChangeId.parse? id = some c
      ∧ numberedId order id = { c with position := k + 1 }.text := by
    intro k id hk
    obtain ⟨hlt, rfl⟩ := List.getElem?_eq_some_iff.mp hk
    have hplace : order.idxOf order[k] = k :=
      (hnumberable.perm.nodup_iff.mpr hnumberable.nodup).idxOf_getElem k hlt
    have hmoved := hnumberable.moved?_idxOf (hmem.mp (List.getElem_mem hlt))
    rw [hplace] at hmoved
    obtain ⟨c, hc, hnew⟩ := Option.map_eq_some_iff.mp hmoved
    exact ⟨c, hc, hnew.symm⟩
  refine ⟨hplaced, fun k id hk => ?_, fun a ha b hb hab => ?_,
    perm_listed hnumberable.nodup hnumberable.perm, map_id_listed fun id hid => hmem.mp hid,
    fun c hc d hd => hmem.mpr (hnumberable.known c hc d hd),
    fun w hw => hmem.mpr (hnumberable.warned w hw), rfl, rfl, rfl, rfl, rfl⟩
  · obtain ⟨c, hc, hnew⟩ := hplaced k id hk
    obtain ⟨position, tail, hcolon, hid, htext⟩ := ChangeId.exists_tail_of_parse? hc
    exact ⟨position, tail, hcolon, hid, hnew.trans (htext (k + 1))⟩
  · exact hnumberable.injOn_numberedId (hmem.mp ha) (hmem.mp hb) hab

/-- Two changes whose identifiers differ in the position only, and a warning about each. -/
def crossedPlan : Plan where
  metadata := ⟨formatVersion, ⟨0, 0⟩, defaultGenerator, .apply⟩
  changes := [
    { id := "1:c:api:shop:orders", kind := "api", ref := "shop:orders", action := .create,
      dependsOn := ["2:c:api:shop:orders", "2:c:api:shop:orders"] },
    { id := "2:c:api:shop:orders", kind := "api", ref := "shop:orders", action := .create }]
  warnings := [⟨"2:c:api:shop:orders", "first"⟩, ⟨"1:c:api:shop:orders", "second"⟩]

/-- Numbered in the other order, the two identifiers change places. -/
theorem numberedBy_crossedPlan : ∃ q,
    crossedPlan.renumber ["2:c:api:shop:orders", "1:c:api:shop:orders"] = .ok q
      ∧ q.changes.map (fun c => (c.id, c.dependsOn)) = [("1:c:api:shop:orders", []),
        ("2:c:api:shop:orders", ["1:c:api:shop:orders", "1:c:api:shop:orders"])]
      ∧ q.warnings = [⟨"1:c:api:shop:orders", "first"⟩, ⟨"2:c:api:shop:orders", "second"⟩]
      ∧ crossedPlan.NumberedBy ["2:c:api:shop:orders", "1:c:api:shop:orders"] q :=
  ⟨_, rfl, by decide +kernel, by decide +kernel, numberedBy_of_renumber rfl⟩

end Plan

end Reconcile
