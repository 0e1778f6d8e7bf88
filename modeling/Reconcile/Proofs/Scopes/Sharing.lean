import Reconcile.Proofs.Lists
import Reconcile.Proofs.Validation.Rules

/-!
# Proofs/Scopes/Sharing — the namespaces of a pass share out the declarations

A pass goes from namespace to namespace and plans, for each kind, the declarations that live there.
Main fact: `shares_planningScopes` — so every declaration of a kind is planned once, and where the
document is accepted, each of these namespaces can be asked for by itself (`IsPlainScope`).
-/

namespace Reconcile

/-! ## Names of namespaces -/

/-- **A namespace that stands for itself**: it is spelled as one, so there is nothing to take off it,
and it is neither a list of namespaces nor the sign for all of them. -/
structure IsPlainScope (scope : String) : Prop where
  spelled : SpellsScope scope
  visible : isBlankText scope = false
  trimmed : trim scope = scope
  single : ',' ∉ scope.toList
  narrow : scope ≠ wildcard

theorem SpellsScope.isPlainScope {scope : String} (h : SpellsScope scope) : IsPlainScope scope where
  spelled := h
  visible := by
    have htrim : trim scope ≠ "" := by
      intro hempty
      have hnonempty := h.nonempty
      rw [← h.spelled.trim, hempty] at hnonempty
      exact absurd hnonempty (by decide)
    rw [← Bool.not_eq_true, ← trim_eq_empty_iff]
    exact htrim
  trimmed := h.spelled.trim
  single hcomma := absurd (h.spelled ',' hcomma) (by decide)
  narrow := h.spelled.ne_wildcard

/-! ## Sharing out -/

/-- **The namespaces of a pass share out the declarations**: they ascend, and each declaration of a
kind is found in one of them, once, behind those that come before it in the document. -/
structure Shares (s : DesiredState) (mode : Mode) : Prop where
  nonempty : planningScopes s mode ≠ []
  ascending : (planningScopes s mode).Pairwise (· < ·)
  perm : ∀ kind, ((planningScopes s mode).flatMap (s.inScope kind)).Perm
    (s.resources.filter fun d => d.kind = kind)
  ordered : ∀ kind scope, (s.inScope kind scope).Sublist s.resources
  plain : s.Accepted → ∀ scope ∈ planningScopes s mode, IsPlainScope scope

variable {s : DesiredState} {mode : Mode}

theorem planningScopes_ne_nil (s : DesiredState) (mode : Mode) : planningScopes s mode ≠ [] := by
  rw [planningScopes_eq]
  split
  · exact List.cons_ne_nil _ _
  · next hsome => exact fun hnil => hsome (List.isEmpty_iff.mpr hnil)

/-- The declarations of a kind in a namespace are found among those of the kind. -/
theorem DesiredState.inScope_eq_filter (s : DesiredState) (kind scope : String) : s.inScope kind scope
    = (s.resources.filter fun d => d.kind = kind).filter fun d => s.scopeOf d = scope := by
  rw [inScope, List.filter_filter]
  refine List.filter_congr fun d _ => ?_
  rw [Bool.and_comm]
  rfl

/-- **The namespaces of a pass share out the declarations of every kind.** -/
theorem shares_planningScopes (s : DesiredState) (mode : Mode) : Shares s mode where
  nonempty := planningScopes_ne_nil s mode
  ascending := ascending_planningScopes s mode
  perm kind := by
    rw [List.flatMap_congr fun scope _ => s.inScope_eq_filter kind scope]
    refine perm_flatMap_filter (nodup_planningScopes s mode) fun d hd => ?_
    exact scopeOf_mem_planningScopes (List.mem_filter.mp hd).1
  ordered kind scope := List.filter_sublist
  plain haccepted scope hscope :=
    (isNamespace_iff.mp (haccepted.isNamespace_planningScopes hscope)).isPlainScope

/-- A catalog over three namespaces: the default one, one that a declaration names, and one to
reconcile although no declaration lives there. -/
def spreadCatalog : DesiredState where
  defaults := { scope := some "shop", scopes := ["billing", "shop"] }
  resources := [
    { kind := "api", ref := "orders", name := "Orders" },
    { kind := "portal", ref := "main", name := "Main", scope := some "legal" },
    { kind := "api", ref := "terms", name := "Terms", scope := some "legal" },
    { kind := "api", ref := "items", name := "Items", scope := some "shop" }]

/-- The catalog is accepted, so that each of its three namespaces stands for itself; in the order of
these, the second api of the document comes first. -/
theorem shares_spreadCatalog :
    spreadCatalog.Accepted
      ∧ planningScopes spreadCatalog .sync = ["billing", "legal", "shop"]
      ∧ ((planningScopes spreadCatalog .sync).flatMap (spreadCatalog.inScope "api")).map (·.ref)
        = ["terms", "orders", "items"]
      ∧ Shares spreadCatalog .sync
      ∧ ∀ scope ∈ planningScopes spreadCatalog .sync, IsPlainScope scope := by
  have haccepted : spreadCatalog.Accepted := by decide +kernel
  have hshares := shares_planningScopes spreadCatalog .sync
  exact ⟨haccepted, by decide +kernel, by decide +kernel, hshares, hshares.plain haccepted⟩

end Reconcile
