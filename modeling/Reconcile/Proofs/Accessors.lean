import Reconcile.Accessors
import Reconcile.Proofs.Dict
import Reconcile.Proofs.Lists

/-!
# Proofs/Accessors — what accessors read

Reading every field of a resource reads whatever can be read of it (`Accessors.get?_readAll`), and
the standard accessors read the same of every kind (`read?_standardAccessors`).
-/

namespace Reconcile

namespace Accessors

variable {ρ : Type} {t : Accessors ρ} {kind key : String}

/-- **A path is listed for a kind where there is an accessor for it.** -/
theorem mem_paths_iff : key ∈ t.paths kind ↔ t.contains kind key = true := by
  rw [contains, lookup?, Option.isSome_or, Bool.or_eq_true, isSome_lookup_iff, isSome_lookup_iff,
    paths, mem_sortedSet]
  constructor
  · intro h
    obtain ⟨⟨⟨k, p⟩, read⟩, he, rfl⟩ := List.mem_map.mp h
    obtain ⟨hmem, htest⟩ := List.mem_filter.mp he
    have hkind : k = kind ∨ k = anyKind := by simpa using htest
    rcases hkind with rfl | rfl
    · exact .inl ⟨read, hmem⟩
    · exact .inr ⟨read, hmem⟩
  · rintro (⟨read, hmem⟩ | ⟨read, hmem⟩)
    · exact List.mem_map.mpr ⟨_, List.mem_filter.mpr ⟨hmem, by simp⟩, rfl⟩
    · exact List.mem_map.mpr ⟨_, List.mem_filter.mpr ⟨hmem, by simp⟩, rfl⟩

/-- **Whatever can be read is read.** -/
theorem get?_readAll (t : Accessors ρ) (kind : String) (r : ρ) (key : String) :
    (t.readAll kind r).get? key = t.read? kind key r := by
  refine Option.ext fun v => ?_
  have hascending : Entries.Ascending
      ((t.paths kind).filterMap fun path => (t.read? kind path r).map fun v => (path, v)) := by
    refine List.Pairwise.filterMap _ (fun p q hlt e he e' he' => ?_) (ascending_sortedSet _)
    obtain ⟨v, -, rfl⟩ := Option.map_eq_some_iff.mp he
    obtain ⟨v', -, rfl⟩ := Option.map_eq_some_iff.mp he'
    exact hlt
  have hentries : (t.readAll kind r).entries = (t.paths kind).filterMap fun path =>
      (t.read? kind path r).map fun v => (path, v) := Entries.ofList_of_ascending hascending
  rw [← Dict.mem_entries_iff, hentries, List.mem_filterMap]
  constructor
  · rintro ⟨path, -, hpath⟩
    obtain ⟨v', hread, heq⟩ := Option.map_eq_some_iff.mp hpath
    obtain ⟨rfl, rfl⟩ := Prod.mk.inj heq
    exact hread
  · intro hread
    obtain ⟨read, hlookup, -⟩ := Option.bind_eq_some_iff.mp hread
    have hknown : t.contains kind key = true := Option.isSome_of_eq_some hlookup
    exact ⟨key, mem_paths_iff.mpr hknown, by rw [hread, Option.map_some]⟩

end Accessors

/-! ## The standard accessors -/

theorem entries_standardAccessors : standardAccessors.entries = [
    ((anyKind, labelsField), fun d => d.labels.toField Value.ofTexts),
    ((anyKind, descriptionField), fun d => d.description.toField Value.text),
    ((anyKind, idField), fun d => d.id.map Value.text),
    ((anyKind, nameField), fun d => some (.text d.name))] := rfl

/-- They are registered for any kind, and for none by itself. -/
theorem lookup?_standardAccessors (kind key : String) :
    standardAccessors.lookup? kind key = standardAccessors.entries.lookup (anyKind, key) := by
  unfold Accessors.lookup?
  by_cases hkind : kind = anyKind
  · rw [hkind, Option.or_self]
  · have hnone : standardAccessors.entries.lookup (kind, key) = none := by
      refine List.lookup_eq_none_iff.mpr fun e he => ?_
      rw [entries_standardAccessors] at he
      simp only [List.mem_cons, List.not_mem_nil, or_false] at he
      rcases he with rfl | rfl | rfl | rfl <;> simp [hkind]
    rw [hnone, Option.none_or]

/-- **What the standard accessors read.** -/
theorem read?_standardAccessors (kind key : String) (d : Declaration) :
    standardAccessors.read? kind key d
      = if key = labelsField then d.labels.toField .ofTexts
        else if key = descriptionField then d.description.toField .text
        else if key = idField then d.id.map .text
        else if key = nameField then some (.text d.name)
        else none := by
  have hcons : ∀ (path : String) (read : Accessor Declaration) (rest),
      List.lookup (anyKind, key) (((anyKind, path), read) :: rest)
        = if key = path then some read else rest.lookup (anyKind, key) := by
    intro path read rest
    rw [List.lookup_cons]
    split
    · next hkey => exact (if_pos (Prod.mk.inj (eq_of_beq hkey)).2).symm
    · next hkey => exact (if_neg fun heq => absurd hkey (by simp [heq])).symm
  rw [Accessors.read?, lookup?_standardAccessors, entries_standardAccessors, hcons, hcons, hcons,
    hcons, List.lookup_nil]
  split_ifs <;> rfl

end Reconcile
