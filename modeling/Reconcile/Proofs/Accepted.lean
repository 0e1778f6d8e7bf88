import Reconcile.Validation
import Reconcile.Proofs.Scopes

/-!
# Proofs/Accepted — what holds of a document without faults

Kinds and references together tell the declarations of an accepted document apart
(`Accepted.nodup`), each of them lives in a namespace that is spelled as one
(`Accepted.isNamespace_scopeOf`), and a pass goes through such namespaces only
(`Accepted.isNamespace_planningScopes`), so never through the one that stands for all.
-/

namespace Reconcile

/-- Validation accepts the document. -/
def DesiredState.Accepted (s : DesiredState) : Prop := s.validate = .ok ()

instance (s : DesiredState) : Decidable s.Accepted :=
  inferInstanceAs (Decidable (s.validate = .ok ()))

theorem faults_eq_nil {s : DesiredState} (h : s.Accepted) : s.faults = [] := by
  rw [DesiredState.Accepted, DesiredState.validate] at h
  split at h
  · assumption
  · exact absurd h (by simp)

theorem eq_false_of_faultIf {broken : Bool} {field : String} {fault : ValidationFault}
    (h : faultIf broken field fault = []) : broken = false := by
  rcases broken with _ | _
  · rfl
  · exact absurd h (by simp [faultIf])

/-! ## Kinds and references -/

/-- An accepted reference is not empty. -/
theorem ref_ne_of_refFaults {field ref : String} (h : refFaults field ref = []) :
    ref.isEmpty = false := by
  rw [Bool.eq_false_iff]
  intro hempty
  obtain rfl := String.isEmpty_iff.mp hempty
  exact absurd h (by simp [refFaults, isBlankText])

/-- What the rules for a declaration by itself say of its reference and its namespace. -/
theorem of_declaration_faults {d : Declaration} {path : String} (h : d.faults path = []) :
    d.ref.isEmpty = false ∧ ∀ name, d.scope = some name → isNamespace name = true := by
  simp only [Declaration.faults, List.append_eq_nil_iff] at h
  obtain ⟨⟨⟨⟨⟨-, href⟩, -⟩, hscope⟩, -⟩, -⟩ := h
  refine ⟨ref_ne_of_refFaults href, fun name hname => ?_⟩
  rw [hname] at hscope
  simpa using eq_false_of_faultIf hscope

/-- Declarations without faults differ in kind or reference, from each other and from those
before. -/
theorem nodup_of_declarationFaults {ds : List Declaration} {i : Nat} {seen : List (String × String)}
    (h : declarationFaults i seen ds = []) : (ds.map fun d => (d.kind, d.ref)).Nodup
      ∧ ∀ d ∈ ds, (d.kind, d.ref) ∉ seen := by
  induction ds generalizing i seen with
  | nil => simp
  | cons d rest ih =>
    unfold declarationFaults at h
    obtain ⟨hfirst, hrest⟩ := List.append_eq_nil_iff.mp h
    obtain ⟨hown, hrepeated⟩ := List.append_eq_nil_iff.mp hfirst
    obtain ⟨hnodup, hfresh⟩ := ih hrest
    have hnew : (d.kind, d.ref) ∉ seen := by
      have hnot := eq_false_of_faultIf hrepeated
      rw [(of_declaration_faults hown).1] at hnot
      simpa using hnot
    refine ⟨List.nodup_cons.mpr ⟨fun hmem => ?_, hnodup⟩, fun e he => ?_⟩
    · obtain ⟨e, he, heq⟩ := List.mem_map.mp hmem
      exact hfresh e he (heq ▸ List.mem_cons_self)
    · rcases List.mem_cons.mp he with rfl | he
      · exact hnew
      · exact fun hseen => hfresh e he (.tail _ hseen)

/-- Every declaration is checked by itself. -/
theorem faults_of_declarationFaults {ds : List Declaration} {i : Nat}
    {seen : List (String × String)} (h : declarationFaults i seen ds = []) :
    ∀ d ∈ ds, ∃ path, d.faults path = [] := by
  induction ds generalizing i seen with
  | nil => simp
  | cons d rest ih =>
    unfold declarationFaults at h
    obtain ⟨hfirst, hrest⟩ := List.append_eq_nil_iff.mp h
    refine List.forall_mem_cons.mpr ⟨⟨_, (List.append_eq_nil_iff.mp hfirst).1⟩, ih hrest⟩

/-! ## Namespaces -/

/-- Every character of a text may stand in a namespace. -/
def IsSpelled (scope : String) : Prop :=
  ∀ c ∈ scope.toList, (isSmallLetter c || c.isDigit || c == '-') = true

theorem IsSpelled.ne_wildcard {scope : String} (h : IsSpelled scope) : scope ≠ wildcard := by
  rintro rfl
  exact absurd (h '*' (by decide)) (by decide)

/-- The characters of a namespace are not blank. -/
theorem IsSpelled.isBlank {scope : String} (h : IsSpelled scope) {c : Char}
    (hc : c ∈ scope.toList) : isBlank c = false := by
  have hspelled := h c hc
  rw [Bool.or_eq_true, Bool.or_eq_true, beq_iff_eq] at hspelled
  rcases hspelled with (hletter | hdigit) | rfl
  · have hrange : 97 ≤ c.toNat ∧ c.toNat ≤ 122 := by
      rwa [isSmallLetter, Bool.and_eq_true, decide_eq_true_eq, decide_eq_true_eq] at hletter
    exact isBlank_of_visible (by omega) (by omega)
  · have hrange : 48 ≤ c.toNat ∧ c.toNat ≤ 57 := by
      rwa [Char.isDigit, Bool.and_eq_true, decide_eq_true_eq, decide_eq_true_eq] at hdigit
    exact isBlank_of_visible (by omega) (by omega)
  · decide

theorem IsSpelled.trim {scope : String} (h : IsSpelled scope) : trim scope = scope :=
  trim_of_forall fun _ hc => h.isBlank hc

theorem isSpelled_of_isNamespace {name : String} (h : isNamespace name = true) :
    IsSpelled name := by
  simp only [isNamespace, Bool.and_eq_true, List.all_eq_true] at h
  exact h.1.1.2

/-- There is nothing to take off a namespace. -/
theorem isNamespace_trim {name : String} (h : isNamespace name = true) :
    isNamespace (trim name) = true := by rwa [(isSpelled_of_isNamespace h).trim]

theorem isNamespace_defaultNamespace : isNamespace defaultNamespace = true := by decide

namespace DesiredState.Accepted

variable {s : DesiredState}

/-- **Kinds and references tell declarations apart.** -/
theorem nodup (h : s.Accepted) : (s.resources.map fun d => (d.kind, d.ref)).Nodup :=
  (nodup_of_declarationFaults (List.append_eq_nil_iff.mp (faults_eq_nil h)).2).1

theorem isNamespace_defaultScope (h : s.Accepted) : isNamespace s.defaultScope = true := by
  have hdefaults := (List.append_eq_nil_iff.mp (faults_eq_nil h)).1
  have hscope := (List.append_eq_nil_iff.mp hdefaults).1
  unfold defaultScope
  split
  · next name hname =>
    rw [hname] at hscope
    split
    · exact isNamespace_defaultNamespace
    · exact isNamespace_trim (by simpa using eq_false_of_faultIf hscope)
  · exact isNamespace_defaultNamespace

/-- **Every declaration lives in a namespace.** -/
theorem isNamespace_scopeOf (h : s.Accepted) {d : Declaration} (hd : d ∈ s.resources) :
    isNamespace (s.scopeOf d) = true := by
  obtain ⟨path, hown⟩ :=
    faults_of_declarationFaults (List.append_eq_nil_iff.mp (faults_eq_nil h)).2 d hd
  unfold scopeOf
  split
  · next name hname =>
    split
    · exact h.isNamespace_defaultScope
    · exact isNamespace_trim ((of_declaration_faults hown).2 name hname)
  · exact h.isNamespace_defaultScope

theorem isSpelled_scopeOf (h : s.Accepted) {d : Declaration} (hd : d ∈ s.resources) :
    IsSpelled (s.scopeOf d) := isSpelled_of_isNamespace (h.isNamespace_scopeOf hd)

/-- **No declaration lives in the namespace that stands for all.** -/
theorem scopeOf_ne_wildcard (h : s.Accepted) {d : Declaration} (hd : d ∈ s.resources) :
    s.scopeOf d ≠ wildcard := (h.isSpelled_scopeOf hd).ne_wildcard

theorem isNamespace_defaultScopes (h : s.Accepted) {scope : String}
    (hscope : scope ∈ s.defaultScopes) : isNamespace scope = true := by
  rcases List.mem_cons.mp (mem_sortedSet.mp hscope) with rfl | hmem
  · exact h.isNamespace_defaultScope
  · obtain ⟨name, hname, rfl⟩ := List.mem_map.mp (List.mem_filter.mp hmem).1
    have hdefaults := (List.append_eq_nil_iff.mp (faults_eq_nil h)).1
    obtain ⟨i, hi⟩ := List.mem_iff_getElem?.mp hname
    have hplace : (name, i) ∈ s.defaults.scopes.zipIdx := List.mk_mem_zipIdx_iff_getElem?.mpr hi
    have hfault := List.flatMap_eq_nil_iff.mp (List.append_eq_nil_iff.mp hdefaults).2 _ hplace
    exact isNamespace_trim (by simpa using eq_false_of_faultIf hfault)

/-- **A pass over an accepted document goes through namespaces that are spelled as such.** -/
theorem isNamespace_planningScopes (h : s.Accepted) {mode : Mode} {scope : String}
    (hscope : scope ∈ planningScopes s mode) : isNamespace scope = true := by
  have hscopes : scope ∈ s.scopes → isNamespace scope = true := by
    intro hmem
    obtain ⟨d, hd, rfl⟩ := s.mem_scopes.mp hmem
    exact h.isNamespace_scopeOf hd
  cases mode with
  | sync => exact (mem_planningScopes_sync.mp hscope).elim hscopes h.isNamespace_defaultScopes
  | apply =>
    rw [planningScopes_eq] at hscope
    split at hscope
    · obtain rfl := List.mem_singleton.mp hscope
      exact isNamespace_defaultNamespace
    · exact hscopes hscope

/-- A pass over an accepted document goes through no namespace that stands for all. -/
theorem planningScopes_ne_wildcard (h : s.Accepted) {mode : Mode} {scope : String}
    (hscope : scope ∈ planningScopes s mode) : scope ≠ wildcard :=
  (isSpelled_of_isNamespace (h.isNamespace_planningScopes hscope)).ne_wildcard

end DesiredState.Accepted

end Reconcile
