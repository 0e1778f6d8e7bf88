import Reconcile.Proofs.Numbering.Result
import Reconcile.Proofs.Order.Diagnosis

/-!
# Proofs/Numbering/Faults — why a plan cannot be numbered

Numbering checks in turn that neither the plan nor the order repeats an identifier, that the order
lists every change, that identifiers can be read, that no dependency dangles and that no warning
does.  Each check stops at the first member that fails (`FirstFailing`), and a fault is what the
first failed check reports (`Plan.Faulty`).

* `Plan.renumber_eq_error_iff` — the stages of numbering, one behind the other.
* `Plan.judges_renumber` — numbering succeeds where all checks pass, and reports the fault
  elsewhere.
-/

namespace Reconcile

theorem firstDangling_iff {changes : List Change} {id d : String} :
    FirstDangling changes id d ↔ ∃ c, c.id = id
      ∧ FirstFailing (Change.ListsAmong (changes.map (·.id))) changes c
      ∧ FirstFailing (· ∈ changes.map (·.id)) c.dependsOn d := by
  constructor
  · rintro ⟨front, c, rest, known, more, hchanges, hid, hdeps, hfront, hknown, hd⟩
    have hmem : d ∈ c.dependsOn := by simp [hdeps]
    exact ⟨c, hid, ⟨front, rest, hchanges, hfront, fun hall => hd (hall d hmem)⟩, known, more,
      hdeps, hknown, hd⟩
  · rintro ⟨c, hid, ⟨front, rest, hchanges, hfront, -⟩, known, more, hdeps, hknown, hd⟩
    exact ⟨front, c, rest, known, more, hchanges, hid, hdeps, hfront, hknown, hd⟩

namespace Plan

/-! ## The fault of a plan and an order -/

section Faults

variable {p : Plan} {order : List String} {e : PlanFault}

/-- **What is wrong with a plan and an order**, the checks in front being passed. -/
inductive Faulty (p : Plan) (order : List String) : PlanFault → Prop
  | repeatedId {id : String} (h : FirstRepeated p.ids id) : p.Faulty order (.duplicateId id)
  | repeatedEntry {id : String} (hids : p.ids.Nodup) (h : FirstRepeated order id) :
      p.Faulty order (.duplicateId id)
  | incomplete (hids : p.ids.Nodup) (horder : order.Nodup) (h : ¬ order.Perm p.ids) :
      p.Faulty order (.incompleteOrder p.changes.length (order.countP fun id => p.ids.contains id))
  | unreadable {id : String} (hids : p.ids.Nodup) (hperm : order.Perm p.ids)
      (h : FirstFailing (fun s => (ChangeId.parse? s).isSome = true) order id) :
      p.Faulty order (.invalidId id)
  | dangling {id d : String} (hids : p.ids.Nodup) (hperm : order.Perm p.ids)
      (hread : ∀ s ∈ order, (ChangeId.parse? s).isSome = true)
      (h : FirstDangling (p.listed order) id d) : p.Faulty order (.unknownDependency id d)
  | strayWarning {w : Warning} (hids : p.ids.Nodup) (hperm : order.Perm p.ids)
      (hread : ∀ s ∈ order, (ChangeId.parse? s).isSome = true)
      (hknown : ∀ c ∈ p.changes, ∀ d ∈ c.dependsOn, d ∈ p.ids)
      (h : FirstFailing (fun v : Warning => v.changeId ∈ p.ids) p.warnings w) :
      p.Faulty order (.invalidId w.changeId)

theorem checkOrder_eq_error_iff : p.checkOrder order = .error e
    ↔ (∃ id, FirstRepeated p.ids id ∧ e = .duplicateId id)
      ∨ p.ids.Nodup ∧ ((∃ id, FirstRepeated order id ∧ e = .duplicateId id)
        ∨ order.Nodup ∧ ¬ order.Perm p.ids
          ∧ e = .incompleteOrder p.changes.length (order.countP fun id => p.ids.contains id)) := by
  simp only [← firstRepeated?_eq_some, ← firstRepeated?_eq_none]
  rcases hids : firstRepeated? p.ids with _ | id
  · rcases horder : firstRepeated? order with _ | id
    · -- both lists are free of repetitions, and the counts tell whether the order is complete
      by_cases hperm : order.Perm p.ids
      · simp [checkOrder_of_perm (firstRepeated?_eq_none.mp hids) hperm, hperm]
      · rcases hcheck : p.checkOrder order with e' | found
        · simp only [checkOrder, hids, horder] at hcheck
          split at hcheck
          · obtain rfl := Except.error.inj hcheck
            simp [hperm, eq_comm (b := e)]
          · exact absurd hcheck nofun
        · exact absurd (checkOrder_ok hcheck).2 hperm
    · simp [checkOrder, hids, horder, eq_comm (b := e)]
  · simp [checkOrder, hids, eq_comm (b := e)]

/-- Numbering fails in one of its stages, behind which the others are not reached. -/
theorem renumber_eq_error_iff : p.renumber order = .error e
    ↔ p.checkOrder order = .error e ∨ ∃ found, p.checkOrder order = .ok found
      ∧ (renamingFrom 1 order = .error e ∨ ∃ names, renamingFrom 1 order = .ok names
        ∧ (renameChanges names p p.changes.length found order = .error e
          ∨ (∃ changes, renameChanges names p p.changes.length found order = .ok changes)
            ∧ renameWarnings names p.warnings = .error e)) := by
  simp only [renumber, bind, Except.bind]
  cases p.checkOrder order with
  | error e' => simp
  | ok found =>
    cases renamingFrom 1 order with
    | error e' => simp
    | ok names =>
      cases hchanges : renameChanges names p p.changes.length found order with
      | error e' => simp [hchanges]
      | ok changes =>
        cases hwarnings : renameWarnings names p.warnings with
        | error e' => simp [hchanges, hwarnings]
        | ok warnings => simp [hchanges, hwarnings, pure, Except.pure]

/-- **A plan that numbering rejects has the fault that is reported.** -/
theorem faulty_of_renumber (h : p.renumber order = .error e) : p.Faulty order e := by
  rcases renumber_eq_error_iff.mp h with hcheck | ⟨found, hcheck, h⟩
  · rcases checkOrder_eq_error_iff.mp hcheck with ⟨id, hid, rfl⟩ | ⟨hids, hentry | hperm⟩
    · exact .repeatedId hid
    · obtain ⟨id, hid, rfl⟩ := hentry
      exact .repeatedEntry hids hid
    · obtain ⟨horder, hperm, rfl⟩ := hperm
      exact .incomplete hids horder hperm
  obtain ⟨hids, hperm⟩ := checkOrder_ok hcheck
  rcases h with hnames | ⟨names, hnames, h⟩
  · obtain ⟨id, hid, rfl⟩ := renamingFrom_eq_error_iff.mp hnames
    exact .unreadable hids hperm hid
  have hread := readable_of_renamingFrom hnames
  have hkeys : names.map (·.1) = order := (forall₂_renamingFrom hnames).1
  have hmem : ∀ id ∈ order, id ∈ p.ids := fun id hid => hperm.mem_iff.mp hid
  rcases h with hchanges | ⟨⟨changes, hchanges⟩, hwarnings⟩
  · rw [renameChanges_eq_error_iff hmem fun id hid => hkeys.symm ▸ hid] at hchanges
    obtain ⟨c, hc, d, hd, rfl⟩ := hchanges
    rw [hkeys.trans (map_id_listed hmem).symm] at hc hd
    exact .dangling hids hperm hread (firstDangling_iff.mpr ⟨c, rfl, hc, hd⟩)
  · have hknown := known_of_renameChanges hids hperm hchanges
    obtain ⟨w, hw, rfl⟩ := renameWarnings_eq_error_iff.mp hwarnings
    simp only [hkeys, hperm.mem_iff] at hknown hw
    exact .strayWarning hids hperm hread hknown hw

/-- **Numbering rejects a plan with a fault, and reports it.** -/
theorem Faulty.renumber_eq (h : p.Faulty order e) : p.renumber order = .error e := by
  rw [renumber_eq_error_iff]
  cases h with
  | repeatedId h => exact .inl (checkOrder_eq_error_iff.mpr (.inl ⟨_, h, rfl⟩))
  | repeatedEntry hids h =>
    exact .inl (checkOrder_eq_error_iff.mpr (.inr ⟨hids, .inl ⟨_, h, rfl⟩⟩))
  | incomplete hids horder h =>
    exact .inl (checkOrder_eq_error_iff.mpr (.inr ⟨hids, .inr ⟨horder, h, rfl⟩⟩))
  | unreadable hids hperm h =>
    exact .inr ⟨_, checkOrder_of_perm hids hperm, .inl (renamingFrom_eq_error_iff.mpr ⟨_, h, rfl⟩)⟩
  | dangling hids hperm hread h =>
    obtain ⟨names, hnames⟩ := exists_renamingFrom hread 1
    have hkeys : names.map (·.1) = order := (forall₂_renamingFrom hnames).1
    have hmem : ∀ id ∈ order, id ∈ p.ids := fun id hid => hperm.mem_iff.mp hid
    obtain ⟨c, rfl, hc, hd⟩ := firstDangling_iff.mp h
    rw [(map_id_listed hmem).trans hkeys.symm] at hc hd
    refine .inr ⟨_, checkOrder_of_perm hids hperm, .inr ⟨names, hnames, .inl ?_⟩⟩
    rw [renameChanges_eq_error_iff hmem fun id hid => hkeys.symm ▸ hid]
    exact ⟨c, hc, _, hd, rfl⟩
  | strayWarning hids hperm hread hknown h =>
    obtain ⟨names, hnames⟩ := exists_renamingFrom hread 1
    have hkeys : ∀ id, id ∈ names.map (·.1) ↔ id ∈ p.ids := fun id => by
      rw [(forall₂_renamingFrom hnames).1, hperm.mem_iff]
    have hchanges := exists_renameChanges (fun id hid => (hkeys id).mpr hid)
      (fun id hid => hperm.mem_iff.mp hid) hknown p.changes.length p.changes.length
    refine .inr ⟨_, checkOrder_of_perm hids hperm, .inr ⟨names, hnames, .inr ⟨hchanges, ?_⟩⟩⟩
    simp only [← hkeys] at h
    exact renameWarnings_eq_error_iff.mpr ⟨_, h, rfl⟩

/-- **What numbering a plan in an order tells about them.** -/
structure Judges (p : Plan) (order : List String) (result : Except PlanFault Plan) : Prop where
  numbered : (∃ q, result = .ok q) ↔ p.Numberable order
  faulty : ∀ e, result = .error e ↔ p.Faulty order e

/-- **Numbering succeeds on the plans that can be numbered, and reports the first fault of the
others.** -/
theorem judges_renumber (p : Plan) (order : List String) : p.Judges order (p.renumber order) where
  numbered := exists_renumber_iff
  faulty _ := ⟨faulty_of_renumber, Faulty.renumber_eq⟩

end Faults

end Plan

end Reconcile
