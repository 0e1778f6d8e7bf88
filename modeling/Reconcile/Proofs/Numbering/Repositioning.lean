import Reconcile.Proofs.Numbering.Result

/-!
# Proofs/Numbering/Repositioning — a plan under other positions

A plan may come with other positions in its identifiers, as long as different identifiers stay
different, and with its changes in another order.  Numbering sees nothing of either
(`Plan.Repositioned.renumber_map`): an identifier moves to a place whatever position it had, and the
order says which place that is.
-/

namespace Reconcile

theorem Change.renamed_renamed (f g : String → String) (c : Change) :
    (c.renamed f).renamed g = c.renamed (g ∘ f) := by
  rw [Change.renamed, Change.renamed, Change.renamed, List.map_map, Function.comp_apply]

namespace Plan

/-- **The plan `p'` has the changes and the warnings of the plan `p` under other identifiers**:
different ones for different ones, each read as the same up to its position. -/
structure Repositioned (p : Plan) (rename : String → String) (p' : Plan) : Prop where
  injOn : Set.InjOn rename {id | id ∈ p.ids}
  moved : ∀ id ∈ p.ids, ∃ c n, ChangeId.parse? id = some c
    ∧ ChangeId.parse? (rename id) = some { c with position := n }
  metadata : p'.metadata = p.metadata
  changes : p'.changes.Perm (p.changes.map (Change.renamed rename))
  warnings : p'.warnings = p.warnings.map (Warning.renamed rename)

namespace Repositioned

variable {p p' q : Plan} {rename : String → String} {order : List String} {id : String}

/-! ## Identifiers -/

theorem perm_ids (h : p.Repositioned rename p') : p'.ids.Perm (p.ids.map rename) := by
  have hids := h.changes.map Change.id
  rw [List.map_map] at hids
  rwa [ids, ids, List.map_map]

theorem mem_ids (h : p.Repositioned rename p') (hid : id ∈ p.ids) : rename id ∈ p'.ids :=
  h.perm_ids.mem_iff.mpr (List.mem_map_of_mem hid)

theorem nodup_map (h : p.Repositioned rename p') {l : List String} (hl : l.Nodup)
    (hsub : ∀ id ∈ l, id ∈ p.ids) : (l.map rename).Nodup :=
  List.Nodup.map_on (fun _ ha _ hb hab => h.injOn (hsub _ ha) (hsub _ hb) hab) hl

/-- **A renamed identifier moves like the identifier itself.** -/
theorem moved?_rename (h : p.Repositioned rename p') (hid : id ∈ p.ids) (n : Nat) :
    ChangeId.moved? (rename id) n = ChangeId.moved? id n := by
  obtain ⟨c, m, hc, hnew⟩ := h.moved id hid
  rw [ChangeId.moved?, ChangeId.moved?, hc, hnew, Option.map_some, Option.map_some]

/-- A renamed order gives a renamed identifier the place that the order gives the identifier. -/
theorem numberedId_rename (h : p.Repositioned rename p') (hn : p.Numberable order)
    (hid : id ∈ p.ids) : numberedId (order.map rename) (rename id) = numberedId order id := by
  have hnodup : (order.map rename).Nodup :=
    h.nodup_map (hn.perm.nodup_iff.mpr hn.nodup) fun id hid => hn.perm.mem_iff.mp hid
  rw [numberedId, idxOf_map_of_nodup hnodup (hn.perm.mem_iff.mpr hid), h.moved?_rename hid,
    hn.moved?_idxOf hid, Option.getD_some]

/-! ## Plans -/

/-- **Under other positions a plan can be numbered in the renamed order.** -/
theorem numberable_map (h : p.Repositioned rename p') (hn : p.Numberable order) :
    p'.Numberable (order.map rename) where
  nodup := h.perm_ids.nodup_iff.mpr (h.nodup_map hn.nodup fun _ hid => hid)
  perm := (hn.perm.map rename).trans h.perm_ids.symm
  readable id hid := by
    obtain ⟨old, hold, rfl⟩ := List.mem_map.mp (h.perm_ids.mem_iff.mp hid)
    obtain ⟨c, n, -, hnew⟩ := h.moved old hold
    exact Option.isSome_of_eq_some hnew
  known c hc d hd := by
    obtain ⟨b, hb, rfl⟩ := List.mem_map.mp (h.changes.mem_iff.mp hc)
    obtain ⟨old, hold, rfl⟩ := List.mem_map.mp hd
    exact h.mem_ids (hn.known b hb old hold)
  warned w hw := by
    rw [h.warnings] at hw
    obtain ⟨v, hv, rfl⟩ := List.mem_map.mp hw
    exact h.mem_ids (hn.warned v hv)

/-- The renamed order lists the changes that the order lists, renamed. -/
theorem listed_map (h : p.Repositioned rename p') (hn : p.Numberable order) :
    p'.listed (order.map rename) = (p.listed order).map (Change.renamed rename) := by
  rw [← map_id_renamed_listed (fun id hid => hn.perm.mem_iff.mp hid) rename]
  refine eq_listed (h.numberable_map hn).nodup fun c hc => ?_
  obtain ⟨b, hb, rfl⟩ := List.mem_map.mp hc
  have hb' : b ∈ p.changes := (perm_listed hn.nodup hn.perm).mem_iff.mp hb
  exact h.changes.mem_iff.mpr (List.mem_map_of_mem hb')

/-- **The numbered plan is the same.** -/
theorem numbered_map (h : p.Repositioned rename p') (hn : p.Numberable order) :
    p'.numbered (order.map rename) = p.numbered order := by
  have hid : ∀ id ∈ p.ids, numberedId (order.map rename) (rename id) = numberedId order id :=
    fun id hid => h.numberedId_rename hn hid
  have hchanges : (p'.listed (order.map rename)).map
        (Change.renamed (numberedId (order.map rename)))
      = (p.listed order).map (Change.renamed (numberedId order)) := by
    rw [h.listed_map hn, List.map_map]
    refine List.map_congr_left fun c hc => ?_
    have hc' : c ∈ p.changes := (perm_listed hn.nodup hn.perm).mem_iff.mp hc
    rw [Function.comp_apply, Change.renamed_renamed]
    exact renamed_congr (hid c.id (List.mem_map_of_mem hc')) fun d hd =>
      hid d (hn.known c hc' d hd)
  have horder : (order.map rename).map (numberedId (order.map rename))
      = order.map (numberedId order) := by
    rw [List.map_map]
    exact List.map_congr_left fun id hmem => hid id (hn.perm.mem_iff.mp hmem)
  have hwarnings : p'.warnings.map (Warning.renamed (numberedId (order.map rename)))
      = p.warnings.map (Warning.renamed (numberedId order)) := by
    rw [h.warnings, List.map_map]
    refine List.map_congr_left fun w hw => ?_
    rw [Function.comp_apply, Warning.renamed, Warning.renamed, Warning.renamed,
      hid w.changeId (hn.warned w hw)]
  rw [numbered, numbered, hchanges, horder, hwarnings, h.metadata]

/-- **Numbering in the renamed order gives what numbering in the order gives.** -/
theorem renumber_map (h : p.Repositioned rename p') (hq : p.renumber order = .ok q) :
    p'.renumber (order.map rename) = .ok q := by
  obtain ⟨hn, rfl⟩ := renumber_eq_ok_iff.mp hq
  exact renumber_eq_ok_iff.mpr ⟨h.numberable_map hn, (h.numbered_map hn).symm⟩

end Repositioned

end Plan

end Reconcile
