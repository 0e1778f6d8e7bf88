import Reconcile.Proofs.Numbering.Repositioning

/-!
# Proofs/Numbering/Composition — numbering a numbered plan again

An identifier under its place in one order is read back with that place, so that a numbered plan is
the plan under other positions (`Plan.Numberable.repositioned_numbered`).  Numbering a plan twice is
therefore numbering it in the second order (`Plan.numbered_numbered`), and a plan is left as it is
when it is numbered in its own order.

* `Plan.forgets_renumber` — both facts, of the numbering as it runs.
-/

namespace Reconcile

namespace Plan

section Composition

variable {p : Plan} {o₁ o₂ : List String}

/-- A numbered identifier is the identifier with another position, and is read back so. -/
theorem Numberable.parse?_numberedId (h : p.Numberable o₁)
    (hfits : p.changes.length < ChangeId.positionLimit) {id : String} (hid : id ∈ p.ids) :
    ∃ c : ChangeId, ChangeId.parse? id = some c
      ∧ ChangeId.parse? (numberedId o₁ id) = some { c with position := o₁.idxOf id + 1 } := by
  obtain ⟨c, hc, hnew⟩ := Option.map_eq_some_iff.mp (h.moved?_idxOf hid)
  have hlt : o₁.idxOf id < p.changes.length := by
    calc o₁.idxOf id
        < o₁.length := List.idxOf_lt_length_of_mem (h.perm.mem_iff.mpr hid)
      _ = p.changes.length := by rw [h.perm.length_eq, ids, List.length_map]
  refine ⟨c, hc, ?_⟩
  rw [← hnew]
  exact ChangeId.parse?_text_of_parse? hc (by omega)

/-- **A numbered plan is the plan under other positions.** -/
theorem Numberable.repositioned_numbered (h : p.Numberable o₁)
    (hfits : p.changes.length < ChangeId.positionLimit) :
    p.Repositioned (numberedId o₁) (p.numbered o₁) where
  injOn := h.injOn_numberedId
  moved id hid := by
    obtain ⟨c, hc, hnew⟩ := h.parse?_numberedId hfits hid
    exact ⟨c, _, hc, hnew⟩
  metadata := rfl
  changes := (perm_listed h.nodup h.perm).map _
  warnings := rfl

/-- **A numbered plan can be numbered again**, in whatever order the plan can be numbered in. -/
theorem Numberable.numbered (h₁ : p.Numberable o₁) (h₂ : p.Numberable o₂)
    (hfits : p.changes.length < ChangeId.positionLimit) :
    (p.numbered o₁).Numberable (o₂.map (numberedId o₁)) :=
  (h₁.repositioned_numbered hfits).numberable_map h₂

/-- **Numbering twice is numbering in the second order.** -/
theorem numbered_numbered (h₁ : p.Numberable o₁) (h₂ : p.Numberable o₂)
    (hfits : p.changes.length < ChangeId.positionLimit) :
    (p.numbered o₁).numbered (o₂.map (numberedId o₁)) = p.numbered o₂ :=
  (h₁.repositioned_numbered hfits).numbered_map h₂

/-- **A numbered plan keeps nothing of its numbering**: any later numbering gives what it gives of
the plan itself, and the plan's own order nothing new. -/
theorem forgets_renumber {q₁ : Plan} (hfits : p.changes.length < ChangeId.positionLimit)
    (h₁ : p.renumber o₁ = .ok q₁) :
    (∀ o₂ q₂, p.renumber o₂ = .ok q₂ → q₁.renumber (o₂.map (numberedId o₁)) = .ok q₂)
      ∧ q₁.renumber q₁.order = .ok q₁ := by
  obtain ⟨hnumberable, rfl⟩ := renumber_eq_ok_iff.mp h₁
  have hagain : ∀ o₂ q₂, p.renumber o₂ = .ok q₂
      → (p.numbered o₁).renumber (o₂.map (numberedId o₁)) = .ok q₂ := by
    intro o₂ q₂ h₂
    obtain ⟨hnumberable₂, rfl⟩ := renumber_eq_ok_iff.mp h₂
    exact renumber_eq_ok_iff.mpr ⟨hnumberable.numbered hnumberable₂ hfits,
      (numbered_numbered hnumberable hnumberable₂ hfits).symm⟩
  exact ⟨hagain, hagain o₁ _ h₁⟩

end Composition

/-- A create, an update and a delete whose positions say nothing of their order. -/
def scatteredPlan : Plan where
  metadata := ⟨formatVersion, ⟨0, 0⟩, defaultGenerator, .sync⟩
  changes := [
    { id := "7:u:api:shop:orders", kind := "api", ref := "shop:orders", action := .update,
      dependsOn := ["3:c:portal:main", "40:d:api_version:v1"] },
    { id := "3:c:portal:main", kind := "portal", ref := "main", action := .create },
    { id := "40:d:api_version:v1", kind := "api_version", ref := "v1", action := .delete }]
  warnings := [⟨"40:d:api_version:v1", "deleted"⟩]

/-- An order of these changes. -/
def deletesFirst : List String :=
  ["40:d:api_version:v1", "7:u:api:shop:orders", "3:c:portal:main"]

theorem forgets_scatteredPlan : ∃ q₁ q₂, scatteredPlan.renumber deletesFirst = .ok q₁
    ∧ scatteredPlan.renumber ["3:c:portal:main", "40:d:api_version:v1", "7:u:api:shop:orders"]
      = .ok q₂
    ∧ q₁.renumber ["3:c:portal:main", "1:d:api_version:v1", "2:u:api:shop:orders"] = .ok q₂
    ∧ q₁.renumber q₁.order = .ok q₁ := by
  have h₁ : scatteredPlan.renumber deletesFirst = .ok (scatteredPlan.numbered deletesFirst) := rfl
  obtain ⟨hagain, hown⟩ := forgets_renumber (by decide +kernel) h₁
  refine ⟨_, _, h₁, rfl, ?_, hown⟩
  exact hagain ["3:c:portal:main", "40:d:api_version:v1", "7:u:api:shop:orders"] _ rfl

end Plan

end Reconcile
