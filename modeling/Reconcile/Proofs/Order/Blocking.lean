import Reconcile.Proofs.DeleteLinks
import Reconcile.Proofs.Order.Circles

/-!
# Proofs/Order/Blocking — creates alone can block a batch

In a batch whose links lead to creates, or from deletes to deletes that they are linked to
(`LeadsToCreates`), a delete waits at most for deletes that wait for nothing, and whatever else is
waited for is a create.  So no delete leads into a circle, and every place of a circle is a create.
Main facts: `LeadsToCreates.blocked` and `LeadsToCreates.exists_order`.
-/

namespace Reconcile

open Relation (ReflTransGen TransGen)

/-- **Links lead to creates**, or from deletes of strategies to the deletes that they wait for.
Deletes refer to nothing else. -/
structure LeadsToCreates (batch : List Change) : Prop where
  live : ∀ c ∈ batch, c.action ≠ .delete → ∀ d ∈ c.dependsOn,
    ∃ b ∈ batch, b.action = .create ∧ b.id = d
  linked : ∀ c ∈ batch, c.action = .delete → ∀ d ∈ c.dependsOn, ∃ b ∈ batch, c.LinksTo b ∧ b.id = d
  plain : ∀ c ∈ batch, c.action = .delete → c.references = ∅ ∧ c.parent = none

/-- **What a report on a batch that creates alone can block says**: the circle that its details name
is one of creates, and it lists no delete. -/
structure BlockedByCreates (batch : List Change) (ids : List String) (details : String) : Prop where
  circle : ∃ circle, Circle (WaitsFor batch) circle
    ∧ details = String.intercalate " -> " ((closed circle).map (idAt batch))
    ∧ ∀ i ∈ circle, ∃ c, batch[i]? = some c ∧ c.action = .create
  listed : ∀ id ∈ ids, ∃ c ∈ batch, c.id = id
  spared : ∀ c ∈ batch, c.action = .delete → c.id ∉ ids

/-! ## Linked batches -/

/-- **Linking the deletes of a batch in which links lead to creates** and deletes have none yet. -/
theorem leadsToCreates_linkDeletes {changes : List Change}
    (hlive : ∀ c ∈ changes, c.action ≠ .delete → ∀ d ∈ c.dependsOn,
      ∃ b ∈ changes, b.action = .create ∧ b.id = d)
    (hdelete : ∀ c ∈ changes, c.action = .delete →
      c.dependsOn = [] ∧ c.references = ∅ ∧ c.parent = none) :
    LeadsToCreates (linkDeletes changes) := by
  have hkept : ∀ b ∈ changes, ∃ b' ∈ linkDeletes changes, b.Extends b' := fun b hb =>
    ⟨_, List.mem_map_of_mem hb, b.extends_addDependencies (deleteLinks changes b)⟩
  constructor <;> intro e he haction <;> obtain ⟨c, hc, rfl⟩ := List.mem_map.mp he <;>
    have hextends := c.extends_addDependencies (deleteLinks changes c) <;>
    rw [hextends.action] at haction
  case live =>
    intro d hd
    rcases Change.mem_dependsOn_addDependencies.mp hd with hlisted | ⟨hlink, -⟩
    · obtain ⟨b, hb, hcreate, rfl⟩ := hlive c hc haction d hlisted
      obtain ⟨b', hb', hbb'⟩ := hkept b hb
      exact ⟨b', hb', hbb'.action.trans hcreate, hbb'.id⟩
    · obtain ⟨b, -, hlinks, -⟩ := mem_deleteLinks.mp hlink
      exact absurd hlinks.1 haction
  case linked =>
    intro d hd
    rcases Change.mem_dependsOn_addDependencies.mp hd with hlisted | ⟨hlink, -⟩
    · rw [(hdelete c hc haction).1] at hlisted
      exact absurd hlisted List.not_mem_nil
    · obtain ⟨b, hb, hlinks, rfl⟩ := mem_deleteLinks.mp hlink
      obtain ⟨b', hb', hbb'⟩ := hkept b hb
      exact ⟨b', hb', (Change.linksTo_congr hextends.core hbb'.core).mpr hlinks, hbb'.id⟩
  case plain =>
    rw [Change.references_addDependencies, Change.parent_addDependencies]
    exact (hdelete c hc haction).2

/-- What a delete is linked to is linked to nothing. -/
theorem Change.LinksTo.not_linksTo {c d e : Change} (h : c.LinksTo d) : ¬d.LinksTo e := by
  intro hlinks
  have hkind := (linksTo_iff.mp h).2.kind
  rw [(linksTo_iff.mp hlinks).1.2] at hkind
  exact absurd hkind (by decide)

namespace LeadsToCreates

variable {batch : List Change} {c d : Change} {i j : Nat}

/-! ## One step -/

/-- A delete lacks nothing. -/
theorem not_lacks (h : LeadsToCreates batch) (hc : c ∈ batch) (hdelete : c.action = .delete)
    {kind : Option String} {ref : String} : ¬c.Lacks kind ref := by
  obtain ⟨hreferences, hparent⟩ := h.plain c hc hdelete
  have hblank : ∀ field, c.references.get? field = none := fun _ => by rw [hreferences]; rfl
  rintro (⟨hfield, -⟩ | ⟨hfield, -, -⟩ | ⟨hp, -⟩)
  · exact absurd ((hblank _).symm.trans hfield) (by simp)
  · exact absurd ((hblank _).symm.trans hfield) (by simp)
  · exact absurd (hparent.symm.trans hp) (by simp)

variable (h : LeadsToCreates batch) (hids : (batch.map (·.id)).Nodup)

include h hids

/-- **Whatever is no delete waits for creates.** -/
theorem create_of_waits (hc : batch[i]? = some c) (hlive : c.action ≠ .delete)
    (hwaits : WaitsFor batch i j) : ∃ d, batch[j]? = some d ∧ d.action = .create := by
  obtain ⟨-, c', d, hc', hd, hlisted | ⟨kind, ref, -, hawaits⟩⟩ := hwaits
  · obtain rfl := Option.some.inj (hc.symm.trans hc')
    obtain ⟨b, hb, hcreate, hid⟩ := h.live c (List.mem_of_getElem? hc) hlive d.id hlisted
    obtain rfl := List.inj_on_of_nodup_map hids hb (List.mem_of_getElem? hd) hid
    exact ⟨b, hd, hcreate⟩
  · obtain ⟨b, hb, hcreate, -⟩ := hawaits.1
    exact ⟨b, hb, hcreate⟩

/-- A delete waits for the deletes that it is linked to. -/
theorem linksTo_of_waits (hc : batch[i]? = some c) (hdelete : c.action = .delete)
    (hwaits : WaitsFor batch i j) : ∃ d, batch[j]? = some d ∧ c.LinksTo d := by
  obtain ⟨-, c', d, hc', hd, hlisted | ⟨kind, ref, hlacks, -⟩⟩ := hwaits <;>
    obtain rfl := Option.some.inj (hc.symm.trans hc')
  · obtain ⟨b, hb, hlinks, hid⟩ := h.linked c (List.mem_of_getElem? hc) hdelete d.id hlisted
    obtain rfl := List.inj_on_of_nodup_map hids hb (List.mem_of_getElem? hd) hid
    exact ⟨b, hd, hlinks⟩
  · exact absurd hlacks (h.not_lacks (List.mem_of_getElem? hc) hdelete)

/-- **What a delete waits for waits for nothing.** -/
theorem not_waits_of_waits (hc : batch[i]? = some c) (hdelete : c.action = .delete)
    (hwaits : WaitsFor batch i j) (k : Nat) : ¬WaitsFor batch j k := by
  obtain ⟨d, hd, hlinks⟩ := h.linksTo_of_waits hids hc hdelete hwaits
  intro hnext
  obtain ⟨e, -, hlinks'⟩ := h.linksTo_of_waits hids hd hlinks.2.1 hnext
  exact hlinks.not_linksTo hlinks'

/-! ## Circles -/

/-- **A change that waits for itself is a create.** -/
theorem create_of_transGen (hcircle : TransGen (WaitsFor batch) i i) :
    ∃ c, batch[i]? = some c ∧ c.action = .create := by
  obtain ⟨k, -, hwaits⟩ := TransGen.tail'_iff.mp hcircle
  obtain ⟨j, hnext, -⟩ := TransGen.head'_iff.mp hcircle
  have ⟨_, b, _, hb, _⟩ := hwaits
  -- what waits for it is no delete, since it waits for something itself
  have hlive : b.action ≠ .delete := fun hdelete =>
    h.not_waits_of_waits hids hb hdelete hwaits j hnext
  exact h.create_of_waits hids hb hlive hwaits

/-- **No delete leads into a circle.** -/
theorem not_leadsToCircle_of_delete (hc : batch[i]? = some c) (hdelete : c.action = .delete) :
    ¬LeadsToCircle batch i := by
  rintro ⟨j, hij, hcircle⟩
  obtain ⟨d, hd, hcreate⟩ := h.create_of_transGen hids hcircle
  rcases ReflTransGen.cases_head hij with rfl | ⟨k, hik, hkj⟩
  · obtain rfl := Option.some.inj (hc.symm.trans hd)
    exact absurd (hdelete.symm.trans hcreate) (by simp)
  · -- the delete goes on to `k`, and there is no way on from there
    have hend := h.not_waits_of_waits hids hc hdelete hik
    obtain ⟨l, hnext⟩ : ∃ l, WaitsFor batch k l := by
      rcases ReflTransGen.cases_head hkj with rfl | ⟨l, hkl, -⟩
      · obtain ⟨l, hkl, -⟩ := TransGen.head'_iff.mp hcircle
        exact ⟨l, hkl⟩
      · exact ⟨l, hkl⟩
    exact hend l hnext

/-- A batch without creates can be ordered. -/
theorem exists_order (hnone : ∀ c ∈ batch, c.action ≠ .create) :
    ∃ order, executionOrder batch = .ok order := by
  refine exists_executionOrder_iff_not_waitsInCircle.mpr ⟨hids, fun c hc d hd => ?_, ?_⟩
  · by_cases hdelete : c.action = .delete
    · obtain ⟨b, hb, -, rfl⟩ := h.linked c hc hdelete d hd
      exact List.mem_map_of_mem hb
    · obtain ⟨b, hb, -, rfl⟩ := h.live c hc hdelete d hd
      exact List.mem_map_of_mem hb
  · rintro ⟨i, hcircle⟩
    obtain ⟨c, hc, hcreate⟩ := h.create_of_transGen hids hcircle
    exact hnone c (List.mem_of_getElem? hc) hcreate

end LeadsToCreates

/-! ## Reports -/

variable {batch : List Change} {ids : List String} {details : String}

/-- What a report names: places that lead into a circle, and a circle. -/
theorem exists_circle_of_executionOrder
    (h : executionOrder batch = .error (.cycle ids details)) :
    (∀ id ∈ ids, ∃ i < batch.length, LeadsToCircle batch i ∧ idAt batch i = id)
      ∧ ∃ circle, Circle (WaitsFor batch) circle
        ∧ details = String.intercalate " -> " ((closed circle).map (idAt batch)) := by
  obtain ⟨a, hstopped, hless, hfault⟩ := exists_stopped_of_executionOrder h
  obtain ⟨circle, hcircle, hfound⟩ :=
    exists_circle_of_stopped hstopped hless fun i => mem_stuck_iff hstopped
  have hsearch := hfound (dependencyTable batch).length (length_dependencyTable batch).ge
  rw [← circle?] at hsearch
  simp only [cycleFault, hsearch] at hfault
  obtain ⟨rfl, rfl⟩ := PlanFault.cycle.inj hfault
  refine ⟨fun id hid => ?_, circle, hcircle, rfl⟩
  obtain ⟨i, hi, rfl⟩ := List.mem_map.mp hid
  have hstuck := (mem_stuck_iff hstopped).mp hi
  exact ⟨i, hstuck.1, (leadsToCircle_iff hstopped).mpr hstuck, rfl⟩

/-- **Where links lead to creates, creates block a batch that is blocked.** -/
theorem LeadsToCreates.blocked (h : LeadsToCreates batch)
    (hfault : executionOrder batch = .error (.cycle ids details)) :
    BlockedByCreates batch ids details := by
  -- a circle is reported only where no identifier is repeated
  have hids : (batch.map (·.id)).Nodup := firstRepeated?_eq_none.mp
    (exists_executionOrder_eq_cycle_iff.mp ⟨ids, details, hfault⟩).1
  obtain ⟨hleads, circle, hcircle, hdetails⟩ := exists_circle_of_executionOrder hfault
  refine ⟨⟨circle, hcircle, hdetails, fun i hi => ?_⟩, fun id hid => ?_, fun c hc hdelete hid => ?_⟩
  · exact h.create_of_transGen hids (hcircle.transGen hi)
  · obtain ⟨i, hi, -, rfl⟩ := hleads id hid
    have hplace : batch[i]? = some batch[i] := List.getElem?_eq_getElem hi
    exact ⟨batch[i], List.getElem_mem hi, (idAt_of_getElem? hplace).symm⟩
  · obtain ⟨i, hi, hleads, hat⟩ := hleads c.id hid
    have hplace : batch[i]? = some batch[i] := List.getElem?_eq_getElem hi
    have hsame : batch[i] = c := List.inj_on_of_nodup_map hids (List.getElem_mem hi) hc
      ((idAt_of_getElem? hplace).symm.trans hat)
    exact h.not_leadsToCircle_of_delete hids hplace (hsame ▸ hdelete) hleads

end Reconcile
