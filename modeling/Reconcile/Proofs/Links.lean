import Reconcile.Plan.DeleteLinks
import Mathlib.Data.List.Nodup

/-!
# Proofs/Links — a change and its links to other changes

The stages behind the planners leave alone what a change does (`Change.core`) and only add links: a
change **extends** another one when it is the same change with further dependencies.  Main facts:
`Change.extends_addDependency` and `Change.extends_addDependencies`.
-/

namespace Reconcile

namespace Change

/-- **What a change does**: all but its identifier, its parent, and what it says of other changes. -/
def core (c : Change) : Change :=
  { c with id := "", references := ∅, parent := none, dependsOn := [] }

/-- The dependencies are listed once each, and the change itself is none of them. -/
def Tidy (c : Change) : Prop := c.dependsOn.Nodup ∧ c.id ∉ c.dependsOn

/-- **A change with further dependencies.** -/
structure Extends (c c' : Change) : Prop where
  id : c'.id = c.id
  core : c'.core = c.core
  dependsOn : c.dependsOn ⊆ c'.dependsOn
  tidy : c.Tidy → c'.Tidy

variable {c c' c'' : Change} {d : String}

theorem Extends.refl (c : Change) : c.Extends c := ⟨rfl, rfl, List.Subset.refl _, fun h => h⟩

theorem Extends.trans (h : c.Extends c') (h' : c'.Extends c'') : c.Extends c'' where
  id := h'.id.trans h.id
  core := h'.core.trans h.core
  dependsOn := List.Subset.trans h.dependsOn h'.dependsOn
  tidy := fun htidy => h'.tidy (h.tidy htidy)

theorem Extends.action (h : c.Extends c') : c'.action = c.action := by
  change c'.core.action = c.core.action
  rw [h.core]

/-! ## Adding a dependency -/

theorem addDependency_of_listed (h : d = c.id ∨ d ∈ c.dependsOn) : c.addDependency d = c :=
  if_pos h

theorem addDependency_of_new (h : ¬(d = c.id ∨ d ∈ c.dependsOn)) :
    c.addDependency d = { c with dependsOn := c.dependsOn ++ [d] } := if_neg h

/-- Adding a dependency adds a link. -/
theorem extends_addDependency (c : Change) (d : String) : c.Extends (c.addDependency d) := by
  by_cases h : d = c.id ∨ d ∈ c.dependsOn
  · rw [addDependency_of_listed h]
    exact .refl c
  · rw [addDependency_of_new h]
    obtain ⟨hself, hnew⟩ := not_or.mp h
    refine ⟨rfl, rfl, List.subset_append_left _ _, fun ⟨hnodup, hfree⟩ => ⟨?_, ?_⟩⟩
    · exact List.nodup_append.mpr ⟨hnodup, List.nodup_singleton d, by
        intro a ha b hb hab
        obtain rfl := List.mem_singleton.mp hb
        exact hnew (hab ▸ ha)⟩
    · intro hmem
      rcases List.mem_append.mp hmem with hmem | hmem
      · exact hfree hmem
      · exact hself (List.mem_singleton.mp hmem).symm

/-- **What a change depends on, with one dependency more**: the change itself is never one. -/
theorem mem_dependsOn_addDependency {x : String} :
    x ∈ (c.addDependency d).dependsOn ↔ x ∈ c.dependsOn ∨ x = d ∧ x ≠ c.id := by
  by_cases h : d = c.id ∨ d ∈ c.dependsOn
  · rw [addDependency_of_listed h]
    refine ⟨.inl, ?_⟩
    rintro (hmem | ⟨rfl, hne⟩)
    · exact hmem
    · exact h.resolve_left hne
  · rw [addDependency_of_new h]
    obtain ⟨hself, -⟩ := not_or.mp h
    rw [List.mem_append, List.mem_singleton]
    exact or_congr_right ⟨fun heq => ⟨heq, heq ▸ hself⟩, And.left⟩

@[simp] theorem references_addDependency (c : Change) (d : String) :
    (c.addDependency d).references = c.references := by
  unfold addDependency
  split <;> rfl

@[simp] theorem parent_addDependency (c : Change) (d : String) :
    (c.addDependency d).parent = c.parent := by
  unfold addDependency
  split <;> rfl

/-! ## Adding dependencies -/

variable (c) (ds : List String)

theorem extends_addDependencies : c.Extends (ds.foldl addDependency c) := by
  induction ds generalizing c with
  | nil => exact .refl c
  | cons d rest ih => exact (c.extends_addDependency d).trans (ih _)

theorem references_addDependencies : (ds.foldl addDependency c).references = c.references := by
  induction ds generalizing c with
  | nil => rfl
  | cons d rest ih => rw [List.foldl_cons, ih, references_addDependency]

theorem parent_addDependencies : (ds.foldl addDependency c).parent = c.parent := by
  induction ds generalizing c with
  | nil => rfl
  | cons d rest ih => rw [List.foldl_cons, ih, parent_addDependency]

variable {c ds}

/-- **What a change depends on, with dependencies added.** -/
theorem mem_dependsOn_addDependencies {x : String} :
    x ∈ (ds.foldl addDependency c).dependsOn ↔ x ∈ c.dependsOn ∨ x ∈ ds ∧ x ≠ c.id := by
  induction ds generalizing c with
  | nil => simp
  | cons d rest ih =>
    rw [List.foldl_cons, ih, (c.extends_addDependency d).id, mem_dependsOn_addDependency,
      List.mem_cons, or_and_right, or_assoc]

/-- Dependencies that are listed are not added again. -/
theorem addDependencies_of_listed (h : ∀ d ∈ ds, d = c.id ∨ d ∈ c.dependsOn) :
    ds.foldl addDependency c = c := by
  induction ds with
  | nil => rfl
  | cons d rest ih =>
    obtain ⟨hd, hrest⟩ := List.forall_mem_cons.mp h
    rw [List.foldl_cons, addDependency_of_listed hd, ih hrest]

/-- **Dependencies are added behind those that are listed**: new ones, each once, and never the
change itself. -/
theorem exists_addDependencies_eq (c : Change) (ds : List String) :
    ∃ added, ds.foldl addDependency c = { c with dependsOn := c.dependsOn ++ added }
      ∧ added.Nodup ∧ c.dependsOn.Disjoint added ∧ c.id ∉ added := by
  induction ds generalizing c with
  | nil => exact ⟨[], by simp, List.nodup_nil, List.disjoint_nil_right _, List.not_mem_nil⟩
  | cons d rest ih =>
    rw [List.foldl_cons]
    by_cases hlisted : d = c.id ∨ d ∈ c.dependsOn
    · rw [addDependency_of_listed hlisted]
      exact ih c
    · obtain ⟨hself, hnew⟩ := not_or.mp hlisted
      obtain ⟨added, heq, hnodup, hdisjoint, hfree⟩ := ih (c.addDependency d)
      rw [addDependency_of_new hlisted] at heq hdisjoint hfree ⊢
      obtain ⟨hbefore, hd⟩ := List.disjoint_append_left.mp hdisjoint
      have hfresh : d ∉ added := List.singleton_disjoint.mp hd
      refine ⟨d :: added, ?_, List.nodup_cons.mpr ⟨hfresh, hnodup⟩,
        List.disjoint_cons_right.mpr ⟨hnew, hbefore⟩, ?_⟩
      · simp only [heq, List.append_assoc, List.singleton_append]
      · exact fun hmem => (List.mem_cons.mp hmem).elim (fun hid => hself hid.symm) hfree

end Change

end Reconcile
