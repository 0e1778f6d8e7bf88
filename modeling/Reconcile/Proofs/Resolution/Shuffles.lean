import Reconcile.Proofs.Order.Agreement
import Reconcile.Proofs.Resolution.Renaming
import Reconcile.Proofs.Shuffles

/-!
# Proofs/Resolution/Shuffles — resolution does not depend on the order of a batch

Where no two creates make the same resource, there is one create at most that a reference can mean,
wherever it stands in the batch (`examine_perm`).  What a change depends on before its references
are resolved is among what resolution makes it wait for (`Scene.Anticipates`).  Main facts:
`Scene.shuffled_resolved` — shuffled drafts are resolved alike — and `Scene.perm_warnings_of_shuffled`,
`Scene.faults_eq_nil_of_shuffled` for what is reported on the way.
-/

namespace Reconcile

open Function (Injective)

/-- Where one member at most passes a test, the order does not matter for finding it. -/
theorem find?_eq_of_perm {α : Type} {l m : List α} {p : α → Bool} (hperm : l.Perm m)
    (hsole : ∀ a ∈ l, ∀ b ∈ l, p a = true → p b = true → a = b) : l.find? p = m.find? p := by
  rcases hfind : m.find? p with _ | b
  · refine List.find?_eq_none.mpr fun a ha => ?_
    exact List.find?_eq_none.mp hfind a (hperm.mem_iff.mp ha)
  · have hb : b ∈ l := hperm.mem_iff.mpr (List.mem_of_find?_eq_some hfind)
    have hpassed := List.find?_some hfind
    rcases hfirst : l.find? p with _ | a
    · exact absurd hpassed (List.find?_eq_none.mp hfirst b hb)
    · rw [hsole a (List.mem_of_find?_eq_some hfirst) b hb (List.find?_some hfirst) hpassed]

/-- A set of texts does not depend on the order of the list. -/
theorem sortedSet_eq_of_perm {l m : List String} (hperm : l.Perm m) : sortedSet l = sortedSet m := by
  refine eq_of_ascending (ascending_sortedSet l) (ascending_sortedSet m) fun t => ?_
  rw [mem_sortedSet, mem_sortedSet, hperm.mem_iff]

/-! ## The order of the creates -/

namespace Surroundings

variable {s : Surroundings} {us : List Upcoming} {changeId : String} {kind : Option String}
  {ref : String}

/-- The same surroundings with the creates of the batch in another order. -/
def withUpcoming (s : Surroundings) (us : List Upcoming) : Surroundings := { s with upcoming := us }

theorem isAmbiguous_perm (hperm : s.upcoming.Perm us) (changeId ref : String) :
    (s.withUpcoming us).isAmbiguous changeId ref = s.isAmbiguous changeId ref := by
  unfold isAmbiguous withUpcoming
  rw [sortedSet_eq_of_perm ((hperm.symm.filter _).map _)]

/-- Creates that a reference may mean are of one kind, if it is not ambiguous. -/
theorem kind_eq_of_not_isAmbiguous (h : s.isAmbiguous changeId ref = false) {u v : Upcoming}
    (hu : u ∈ s.upcoming) (hv : v ∈ s.upcoming) (huref : u.ref = ref) (hvref : v.ref = ref)
    (huid : u.id ≠ changeId) (hvid : v.id ≠ changeId) : u.kind = v.kind := by
  let created := sortedSet
    ((s.upcoming.filter fun u => u.ref == ref && u.id != changeId).map (·.kind))
  have hcreated : ∀ w ∈ s.upcoming, w.ref = ref → w.id ≠ changeId → w.kind ∈ created := by
    intro w hw hwref hwid
    exact mem_sortedSet.mpr (List.mem_map_of_mem (List.mem_filter.mpr ⟨hw, by simp [hwref, hwid]⟩))
  have hlength : created.length ≤ 1 := by
    have hmax : ¬1 < max created.length (s.index.kindCount ref) := by
      simpa [isAmbiguous] using h
    exact not_lt.mp fun hlt => hmax (lt_max_of_lt_left hlt)
  rcases hlist : created with _ | ⟨k, _ | ⟨k', rest⟩⟩
  · exact absurd (hlist ▸ hcreated u hu huref huid) List.not_mem_nil
  · have huk := List.mem_singleton.mp (hlist ▸ hcreated u hu huref huid)
    have hvk := List.mem_singleton.mp (hlist ▸ hcreated v hv hvref hvid)
    exact huk.trans hvk.symm
  · rw [hlist] at hlength
    exact absurd hlength (by simp)

/-- **References are decided whatever the order of the creates**, where no two make the same
resource. -/
theorem examine_perm (honce : (s.upcoming.map fun u => (u.kind, u.ref)).Nodup)
    (hperm : s.upcoming.Perm us) : (s.withUpcoming us).examine = s.examine := by
  funext changeId kind r
  unfold examine
  rw [isAmbiguous_perm hperm]
  split
  · rfl
  · next hclear =>
    have hfirst : (s.withUpcoming us).upcoming? changeId kind r.target
        = s.upcoming? changeId kind r.target := by
      refine (find?_eq_of_perm hperm fun u hu v hv hup hvp => ?_).symm
      simp only [Bool.and_eq_true, beq_iff_eq, bne_iff_ne] at hup hvp
      obtain ⟨⟨huref, huid⟩, hukind⟩ := hup
      obtain ⟨⟨hvref, hvid⟩, hvkind⟩ := hvp
      have hkind : u.kind = v.kind := by
        rcases kind with _ | k
        · have hone : s.isAmbiguous changeId r.target = false := by simpa using hclear
          exact kind_eq_of_not_isAmbiguous hone hu hv huref hvref huid hvid
        · rw [Option.all_some, beq_iff_eq] at hukind hvkind
          exact hukind.trans hvkind.symm
      exact List.inj_on_of_nodup_map honce hu hv (Prod.ext hkind (huref.trans hvref.symm))
    rw [hfirst]
    rfl

end Surroundings

namespace Resolution

variable {s s' : Surroundings} {look : Look} {move : String → String} {a b : Change}

/-- **Effects depend on the surroundings only by how references are decided there.** -/
theorem effectOf_congr (h : s'.examine = s.examine) (look : Look) :
    effectOf s' look = effectOf s look := by
  have hfind : s'.find look = s.find look := by
    funext changeId kind r
    rw [Surroundings.find, Surroundings.find, h]
  have hreference : referenceEffect s' look = referenceEffect s look := by
    funext changeId field r
    rw [referenceEffect, referenceEffect, h, hfind]
  have hscalar : scalarEffect s' look = scalarEffect s look := by
    funext changeId field r
    rw [scalarEffect, scalarEffect, hreference, hfind]
  have hitemOf : itemOf? s' look = itemOf? s look := by
    funext changeId field item
    rw [itemOf?, itemOf?, hfind]
  have hitem : itemEffect s' look = itemEffect s look := by
    funext changeId field item
    rw [itemEffect, itemEffect, hreference]
  have hlist : listEffect s' look = listEffect s look := by
    funext changeId field items
    rw [listEffect, listEffect, listOf?, listOf?, hitem, hitemOf]
  have hfield : fieldEffect s' look = fieldEffect s look := by
    funext changeId field v
    cases v <;> simp only [fieldEffect, hlist, hscalar]
  have hparent : parentEffect s' look = parentEffect s look := by
    funext changeId parent
    rcases parent with _ | ⟨kind, ref, _ | known⟩
    · rfl
    · simp only [parentEffect, h, hfind]
    · rfl
  funext c
  rw [effectOf, effectOf, fieldsEffect, fieldsEffect, hfield, hparent]

/-- A change that does the same has the same effect under the new identifiers. -/
theorem effectOf_moved (hmove : Injective move) (hab : a.Moved move b) :
    effectOf (s.renamed move) look b = (effectOf s look a).renamed move := by
  have hsame : effectOf (s.renamed move) look b = effectOf (s.renamed move) look (a.renamed move) := by
    have haction : b.action = a.action := hab.congr (·.action) fun _ => rfl
    have hfields : b.fields = a.fields := hab.congr (·.fields) fun _ => rfl
    have hparent : b.parent = a.parent := hab.congr (·.parent) fun _ => rfl
    rw [effectOf, haction, hab.id, hfields, hparent]
    rfl
  rw [hsame, effectOf_renamed hmove]

end Resolution

/-- The creates of a shuffled batch. -/
theorem perm_upcomingOf {move : String → String} {as bs : List Change}
    (h : Shuffled (Change.Moved move) as bs) :
    ((upcomingOf as).map (Upcoming.renamed move)).Perm (upcomingOf bs) := by
  have hcreates := h.filter (p := fun e => e.action == .create) (q := fun e => e.action == .create)
    fun a b hab => (hab.congr (·.action == .create) fun _ => rfl).symm
  have hperm := hcreates.perm_map (f := fun e : Change => (⟨move e.id, e.kind, e.ref⟩ : Upcoming))
    (g := fun e : Change => (⟨e.id, e.kind, e.ref⟩ : Upcoming)) fun a _ b _ hab => by
      have hkind : b.kind = a.kind := hab.congr (·.kind) fun _ => rfl
      have href : b.ref = a.ref := hab.congr (·.ref) fun _ => rfl
      rw [hab.id, hkind, href]
  rw [upcomingOf, upcomingOf, List.map_map]
  exact hperm

/-- What creates of a batch make, where no two make the same. -/
theorem CreatesOnce.nodup_upcoming {changes : List Change} (h : CreatesOnce changes) :
    ((upcomingOf changes).map fun u => (u.kind, u.ref)).Nodup := by
  rw [upcomingOf, List.map_map]
  exact h

namespace Scene

variable {c : Scene} {move : String → String} {as bs : List Change} {a b : Change}

/-- **What changes depend on is what resolution makes them wait for.** -/
def Anticipates (c : Scene) (changes : List Change) : Prop :=
  ∀ e ∈ changes, ∀ d ∈ e.dependsOn, d ≠ e.id ∧
    d ∈ (Resolution.effectOf (c.around (upcomingOf changes)) c.snapshot.look e).awaited

/-- **Resolution has the same effect on a change of a shuffled batch**, under its new identifier. -/
theorem effectOf_shuffled (hmove : Injective move) (hshuffled : Shuffled (Change.Moved move) as bs)
    (honce : CreatesOnce as) (hab : a.Moved move b) :
    Resolution.effectOf (c.around (upcomingOf bs)) c.snapshot.look b
      = (Resolution.effectOf (c.around (upcomingOf as)) c.snapshot.look a).renamed move := by
  let s := (c.around (upcomingOf as)).renamed move
  have hperm : s.upcoming.Perm (upcomingOf bs) := perm_upcomingOf hshuffled
  have hnodup : (s.upcoming.map fun u => (u.kind, u.ref)).Nodup := by
    change (((upcomingOf as).map (Upcoming.renamed move)).map fun u => (u.kind, u.ref)).Nodup
    rw [List.map_map]
    exact honce.nodup_upcoming
  have hexamine : (c.around (upcomingOf bs)).examine = s.examine :=
    Surroundings.examine_perm hnodup hperm
  rw [Resolution.effectOf_congr hexamine, Resolution.effectOf_moved hmove hab]

/-- **Where both depend on what they wait for alone, changes that do the same are resolved alike.** -/
theorem alike_onChange (hmove : Injective move) (hab : a.Moved move b) {e : Resolution.Effect}
    (ha : ∀ d ∈ a.dependsOn, d ≠ a.id ∧ d ∈ e.awaited)
    (hb : ∀ d ∈ b.dependsOn, d ≠ b.id ∧ d ∈ (e.renamed move).awaited) :
    (e.onChange a).Alike move ((e.renamed move).onChange b) where
  id := by rw [Resolution.Effect.id_onChange, Resolution.Effect.id_onChange, hab.id]
  bare := by
    have hnoting : ∀ (f : Resolution.Effect) (x : Change),
        (f.onChange x).bare = x.bare.noting f.written f.parent := by
      intro f x
      rw [← x.bare_addDependencies f.awaited]
      rfl
    rw [hnoting, hnoting, hab.bare]
    rfl
  dependsOn d := by
    have hawaited : ∀ x, x ∈ (e.onChange a).dependsOn ↔ x ∈ e.awaited ∧ x ≠ a.id := fun x =>
      Resolution.mem_dependsOn_onChange.trans
        (or_iff_right_of_imp fun hx => ⟨(ha x hx).2, (ha x hx).1⟩)
    have hawaited' : d ∈ ((e.renamed move).onChange b).dependsOn
        ↔ d ∈ e.awaited.map move ∧ d ≠ move a.id := by
      rw [← hab.id]
      exact Resolution.mem_dependsOn_onChange.trans
        (or_iff_right_of_imp fun hd => ⟨(hb d hd).2, (hb d hd).1⟩)
    rw [hawaited', List.mem_map, List.mem_map]
    constructor
    · rintro ⟨⟨x, hx, rfl⟩, hne⟩
      exact ⟨x, (hawaited x).mpr ⟨hx, fun heq => hne (congrArg move heq)⟩, rfl⟩
    · rintro ⟨x, hx, rfl⟩
      obtain ⟨hmem, hne⟩ := (hawaited x).mp hx
      exact ⟨⟨x, hmem, rfl⟩, fun heq => hne (hmove heq)⟩

section Drafts

variable (hmove : Injective move) (hshuffled : Shuffled (Change.Moved move) as bs)
  (honce : CreatesOnce as)

include hmove hshuffled honce

/-- **Shuffled drafts are resolved alike.** -/
theorem shuffled_resolved (ha : c.Anticipates as) (hb : c.Anticipates bs) :
    Shuffled (Change.Alike move) (c.resolved as) (c.resolved bs) := by
  refine hshuffled.map fun a hamem b hbmem hab => ?_
  have heffect := effectOf_shuffled (c := c) hmove hshuffled honce hab
  have hbdeps := hb b hbmem
  rw [heffect] at hbdeps ⊢
  exact alike_onChange hmove hab (ha a hamem) hbdeps

/-- **The same warnings are given on shuffled drafts**, up to order and identifiers. -/
theorem perm_warnings_of_shuffled : ((c.report as).warnings.map (Warning.renamed move)).Perm
    (c.report bs).warnings := by
  rw [report, report, Resolution.warnings_batchEffect, Resolution.warnings_batchEffect,
    List.map_flatMap]
  refine hshuffled.perm_flatMap fun a _ b _ hab => ?_
  rw [effectOf_shuffled hmove hshuffled honce hab]
  rfl

/-- **Shuffled drafts both have faults, or neither does.** -/
theorem faults_eq_nil_of_shuffled : (c.report as).faults = [] ↔ (c.report bs).faults = [] := by
  have hperm : ((c.report as).faults.map (ReferenceFault.renamed move)).Perm
      (c.report bs).faults := by
    rw [report, report, Resolution.faults_batchEffect, Resolution.faults_batchEffect,
      List.map_flatMap]
    refine hshuffled.perm_flatMap fun a _ b _ hab => ?_
    rw [effectOf_shuffled hmove hshuffled honce hab]
    rfl
  rw [← List.length_eq_zero_iff, ← List.length_eq_zero_iff, ← hperm.length_eq, List.length_map]

end Drafts

end Scene

end Reconcile
