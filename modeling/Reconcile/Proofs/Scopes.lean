import Reconcile.Pass
import Mathlib.Data.List.DropRight

/-!
# Proofs/Scopes — the namespaces that a pass goes through

A namespace that a pass works with is trimmed and not empty (`IsScope`), whatever the document says,
so that asking for it asks for it alone (`normalizeNamespaces_singleton`).  The namespaces of a pass
are listed once each (`nodup_planningScopes`), and every declaration lives in one of them
(`scopeOf_mem_planningScopes`).
-/

namespace Reconcile

/-! ## Trimming -/

theorem dropBlanksRight_eq_rdropWhile (cs : List Char) :
    dropBlanksRight cs = cs.rdropWhile isBlank := rfl

/-- Taking blanks off the end leaves the start as it is. -/
theorem dropWhile_rdropWhile_dropWhile (cs : List Char) :
    ((cs.dropWhile isBlank).rdropWhile isBlank).dropWhile isBlank
      = (cs.dropWhile isBlank).rdropWhile isBlank := by
  rw [List.dropWhile_eq_self_iff]
  intro hpos
  have hlt : 0 < (cs.dropWhile isBlank).length := by
    have hle := (List.rdropWhile_prefix isBlank (cs.dropWhile isBlank)).length_le
    omega
  have hget : ((cs.dropWhile isBlank).rdropWhile isBlank)[0] = (cs.dropWhile isBlank)[0] :=
    (List.rdropWhile_prefix isBlank (cs.dropWhile isBlank)).getElem hpos
  rw [hget]
  exact List.dropWhile_get_zero_not isBlank cs hlt

@[simp] theorem trim_trim (s : String) : trim (trim s) = trim s := by
  simp only [trim, dropBlanksRight_eq_rdropWhile, String.toList_ofList]
  rw [dropWhile_rdropWhile_dropWhile, List.rdropWhile_idempotent]

/-- Nothing is left of a text exactly where it has blanks alone. -/
theorem trim_eq_empty_iff {s : String} : trim s = "" ↔ isBlankText s = true := by
  rw [← String.toList_inj]
  simp only [trim, dropBlanksRight_eq_rdropWhile, String.toList_ofList, isBlankText,
    List.all_eq_true, String.toList_empty, List.rdropWhile_eq_nil_iff]
  constructor
  · intro h
    have hnil : s.toList.dropWhile isBlank = [] := by
      by_contra hne
      have hpos := List.length_pos_of_ne_nil hne
      exact List.dropWhile_get_zero_not isBlank _ hpos (h _ (List.getElem_mem hpos))
    exact List.dropWhile_eq_nil_iff.mp hnil
  · intro h c hc
    exact h c ((List.dropWhile_subset isBlank) hc)

/-- A visible character of ASCII is no blank. -/
theorem isBlank_of_visible {c : Char} (hlow : 0x20 < c.toNat) (hhigh : c.toNat < 0x7F) :
    isBlank c = false := by
  simp only [isBlank, Bool.or_eq_false_iff, Bool.and_eq_false_iff, decide_eq_false_iff_not,
    beq_eq_false_iff_ne]
  omega

/-- A text without blanks is trimmed. -/
theorem trim_of_forall {s : String} (h : ∀ c ∈ s.toList, isBlank c = false) : trim s = s := by
  have hleft : s.toList.dropWhile isBlank = s.toList := by
    rw [List.dropWhile_eq_self_iff]
    intro hpos
    rw [h _ (List.getElem_mem hpos)]
    exact Bool.false_ne_true
  have hright : s.toList.rdropWhile isBlank = s.toList := by
    rw [List.rdropWhile_eq_self_iff]
    intro hne
    rw [h _ (List.getLast_mem hne)]
    exact Bool.false_ne_true
  rw [trim, dropBlanksRight_eq_rdropWhile, hleft, hright, String.ofList_toList]

/-! ## Namespaces -/

/-- **A namespace that can be asked for**: there are no blanks around it, and it is not empty. -/
def IsScope (s : String) : Prop := trim s = s ∧ s ≠ ""

theorem isScope_defaultNamespace : IsScope defaultNamespace := by
  constructor <;> decide

theorem isScope_trim {s : String} (h : trim s ≠ "") : IsScope (trim s) := ⟨trim_trim s, h⟩

/-- One such namespace is its own normalized list. -/
theorem normalizeNamespaces_singleton {s : String} (h : IsScope s) :
    normalizeNamespaces [s] = [s] := by
  have hne : s.isEmpty = false := by simpa using h.2
  simp only [normalizeNamespaces, List.map_cons, List.map_nil, h.1, List.filter_cons, hne,
    Bool.not_false, if_true, List.filter_nil]
  split
  · next hw =>
    have hs : wildcard = s := by simpa using hw
    rw [hs]
  · rfl

namespace DesiredState

variable (s : DesiredState)

theorem isScope_defaultScope : IsScope s.defaultScope := by
  unfold defaultScope
  split
  · next name _ =>
    split
    · exact isScope_defaultNamespace
    · next hblank => exact isScope_trim fun h => hblank (trim_eq_empty_iff.mp h)
  · exact isScope_defaultNamespace

theorem isScope_scopeOf (d : Declaration) : IsScope (s.scopeOf d) := by
  unfold scopeOf
  split
  · next name _ =>
    split
    · exact s.isScope_defaultScope
    · next hne => exact isScope_trim (by simpa using hne)
  · exact s.isScope_defaultScope

theorem mem_scopes {scope : String} : scope ∈ s.scopes ↔ ∃ d ∈ s.resources, s.scopeOf d = scope := by
  simp [scopes]

theorem mem_inScope {kind scope : String} {d : Declaration} :
    d ∈ s.inScope kind scope ↔ d ∈ s.resources ∧ d.kind = kind ∧ s.scopeOf d = scope := by
  simp [inScope]

theorem isScope_of_mem_defaultScopes {scope : String} (h : scope ∈ s.defaultScopes) :
    IsScope scope := by
  rcases List.mem_cons.mp (mem_sortedSet.mp h) with rfl | h
  · exact s.isScope_defaultScope
  · obtain ⟨hmem, hne⟩ := List.mem_filter.mp h
    obtain ⟨name, -, rfl⟩ := List.mem_map.mp hmem
    exact isScope_trim (by simpa using hne)

end DesiredState

/-! ## The namespaces of a pass -/

/-- The namespaces that a document names for a mode, ascending. -/
def DesiredState.namedScopes (s : DesiredState) : Mode → List String
  | .apply => s.scopes
  | .sync => sortedSet (s.scopes ++ s.defaultScopes)

variable {s : DesiredState} {mode : Mode} {scope : String}

theorem planningScopes_eq : planningScopes s mode
    = if (s.namedScopes mode).isEmpty then [defaultNamespace] else s.namedScopes mode := by
  cases mode <;> rfl

theorem isScope_of_mem_namedScopes (h : scope ∈ s.namedScopes mode) : IsScope scope := by
  have hscopes : ∀ scope ∈ s.scopes, IsScope scope := by
    intro scope hscope
    obtain ⟨d, -, rfl⟩ := s.mem_scopes.mp hscope
    exact s.isScope_scopeOf d
  rcases mode with _ | _
  · exact hscopes scope h
  · rcases List.mem_append.mp (mem_sortedSet.mp h) with h | h
    · exact hscopes scope h
    · exact s.isScope_of_mem_defaultScopes h

/-- **Every namespace of a pass can be asked for.** -/
theorem isScope_of_mem_planningScopes (h : scope ∈ planningScopes s mode) : IsScope scope := by
  rw [planningScopes_eq] at h
  split at h
  · obtain rfl := List.mem_singleton.mp h
    exact isScope_defaultNamespace
  · exact isScope_of_mem_namedScopes h

/-- **Every declaration lives in a namespace of the pass.** -/
theorem scopeOf_mem_planningScopes {d : Declaration} (hd : d ∈ s.resources) :
    s.scopeOf d ∈ planningScopes s mode := by
  have hscopes : s.scopeOf d ∈ s.scopes := s.mem_scopes.mpr ⟨d, hd, rfl⟩
  have hmem : s.scopeOf d ∈ s.namedScopes mode := by
    rcases mode with _ | _
    · exact hscopes
    · exact mem_sortedSet.mpr (List.mem_append_left _ hscopes)
  rw [planningScopes_eq]
  split
  · next hempty => exact absurd hmem (by simp [List.isEmpty_iff.mp hempty])
  · exact hmem

theorem defaultScope_mem_defaultScopes (s : DesiredState) : s.defaultScope ∈ s.defaultScopes :=
  mem_sortedSet.mpr List.mem_cons_self

/-- **A pass that deletes goes through the namespaces of the declarations and the default ones.** -/
theorem mem_planningScopes_sync :
    scope ∈ planningScopes s .sync ↔ scope ∈ s.scopes ∨ scope ∈ s.defaultScopes := by
  have hmem : scope ∈ s.namedScopes .sync ↔ scope ∈ s.scopes ∨ scope ∈ s.defaultScopes :=
    mem_sortedSet.trans List.mem_append
  have hdefault : s.defaultScope ∈ s.namedScopes .sync :=
    mem_sortedSet.mpr (List.mem_append_right _ (defaultScope_mem_defaultScopes s))
  have hne : (s.namedScopes .sync).isEmpty = false := by
    simpa using List.ne_nil_of_mem hdefault
  rw [planningScopes_eq, hne, if_neg Bool.false_ne_true, hmem]

/-- **A pass goes through each namespace once**, in ascending order. -/
theorem ascending_planningScopes (s : DesiredState) (mode : Mode) :
    (planningScopes s mode).Pairwise (· < ·) := by
  rw [planningScopes_eq]
  split
  · exact List.pairwise_singleton _ _
  · rcases mode with _ | _
    · exact ascending_sortedSet _
    · exact ascending_sortedSet _

theorem nodup_planningScopes (s : DesiredState) (mode : Mode) : (planningScopes s mode).Nodup := by
  refine (ascending_planningScopes s mode).imp fun {a b} hlt heq => ?_
  exact String.lt_irrefl b (heq ▸ hlt)

end Reconcile
