import Reconcile.Plan.Order
import Reconcile.Proofs.Dict
import Reconcile.Proofs.Order.Agenda

/-!
# Proofs/Order/Waiting — which changes wait for which

A change **lacks** what a reference of it or its parent stands for where that does not exist yet,
and a lacked resource **awaits** the create of the batch that makes it.  A change waits for the
changes it lists and for the creates that what it lacks awaits (`WaitsFor`).  Main fact:
`mem_dependencyTable` — the table of the ordering lists exactly these.
-/

namespace Reconcile

/-- **A change lacks a resource** of a kind, where that is known, and with a reference: a scalar
reference, an item of a list of references, or the parent does not exist yet. -/
inductive Change.Lacks (c : Change) : Option String → String → Prop
  | scalar {field : String} {f : ResolvedField} (hfield : c.references.get? field = some f)
      (hid : f.id = unknownId) : c.Lacks (targetKind? field) f.target
  | item {field : String} {f : ResolvedField} {i : Nat} {target : String}
      (hfield : c.references.get? field = some f) (htarget : f.targets[i]? = some target)
      (hid : f.ids[i]? = some unknownId) : c.Lacks (targetKind? field) target
  | parent {p : Parent} (hparent : c.parent = some p) (hid : p.id = none) :
      c.Lacks (some p.kind) p.ref

/-- The change at a place creates what a reference names, of the kind if one is given. -/
def CreatesAt (changes : List Change) (kind : Option String) (ref : String) (j : Nat) : Prop :=
  ∃ d, changes[j]? = some d ∧ d.action = .create ∧ d.ref = ref ∧ ∀ k, kind = some k → d.kind = k

/-- The create that a lacked resource awaits: the last one that makes it if its kind is known, else
the only one with the reference. -/
def Awaits (changes : List Change) (kind : Option String) (ref : String) (j : Nat) : Prop :=
  CreatesAt changes kind ref j ∧
    ∀ i, CreatesAt changes kind ref i → (kind = none → i = j) ∧ i ≤ j

/-- **The change at one place waits for the change at another one.** -/
def WaitsFor (changes : List Change) (i j : Nat) : Prop :=
  j ≠ i ∧ ∃ c d, changes[i]? = some c ∧ changes[j]? = some d ∧
    (d.id ∈ c.dependsOn ∨ ∃ kind ref, c.Lacks kind ref ∧ Awaits changes kind ref j)

/-! ## What a change lacks -/

theorem mem_unknownTargets {f : ResolvedField} {target : String} :
    target ∈ f.unknownTargets ↔ (f.id = unknownId ∧ target = f.target)
      ∨ ∃ i : Nat, f.targets[i]? = some target ∧ f.ids[i]? = some unknownId := by
  have hitems : target ∈ ((f.targets.zip f.ids).filter fun e => e.2 == unknownId).map (·.1)
      ↔ ∃ i : Nat, f.targets[i]? = some target ∧ f.ids[i]? = some unknownId := by
    simp only [List.mem_map, List.mem_filter, beq_iff_eq, Prod.exists, exists_and_right,
      exists_eq_right]
    simp only [List.mem_iff_getElem?, List.getElem?_zip_eq_some]
  rw [ResolvedField.unknownTargets, List.mem_append, hitems]
  by_cases hid : f.id = unknownId <;> simp [hid]

/-- **What a change lacks is what the ordering reads off it.** -/
theorem mem_unknownReferences {c : Change} {kind : Option String} {ref : String} :
    (kind, ref) ∈ c.unknownReferences ↔ c.Lacks kind ref := by
  constructor
  · intro h
    rcases List.mem_append.mp h with h | h
    · obtain ⟨⟨field, f⟩, hmem, h⟩ := List.mem_flatMap.mp h
      obtain ⟨target, htarget, heq⟩ := List.mem_map.mp h
      obtain ⟨rfl, rfl⟩ := Prod.mk.inj heq
      have hfield := Dict.mem_entries_iff.mp hmem
      rcases mem_unknownTargets.mp htarget with ⟨hid, rfl⟩ | ⟨i, hti, hid⟩
      · exact .scalar hfield hid
      · exact .item hfield hti hid
    · cases hparent : c.parent with
      | none => simp [hparent] at h
      | some p =>
        rw [hparent] at h
        cases hid : p.id with
        | some id => simp [hid] at h
        | none =>
          have heq : (kind, ref) = (some p.kind, p.ref) := by simpa [hid] using h
          obtain ⟨rfl, rfl⟩ := Prod.mk.inj heq
          exact .parent hparent hid
  · rintro (⟨hfield, hid⟩ | ⟨hfield, htarget, hid⟩ | ⟨hparent, hid⟩)
    · refine List.mem_append_left _ (List.mem_flatMap.mpr ⟨_, Dict.mem_entries_iff.mpr hfield, ?_⟩)
      exact List.mem_map_of_mem (mem_unknownTargets.mpr (.inl ⟨hid, rfl⟩))
    · refine List.mem_append_left _ (List.mem_flatMap.mpr ⟨_, Dict.mem_entries_iff.mpr hfield, ?_⟩)
      exact List.mem_map_of_mem (mem_unknownTargets.mpr (.inr ⟨_, htarget, hid⟩))
    · refine List.mem_append_right _ ?_
      rw [hparent]
      simp [hid]

/-! ## Which create is awaited -/

/-- The last member of an ascending list is the greatest. -/
theorem getLast?_eq_some_iff_of_ascending {l : List Nat} (h : l.Pairwise (· < ·)) {j : Nat} :
    l.getLast? = some j ↔ j ∈ l ∧ ∀ i ∈ l, i ≤ j := by
  induction l with
  | nil => simp
  | cons a rest ih =>
    obtain ⟨ha, hrest⟩ := List.pairwise_cons.mp h
    cases rest with
    | nil =>
      simp only [List.getLast?_singleton, Option.some.injEq, List.mem_singleton, forall_eq]
      exact ⟨fun he => ⟨he.symm, he.le⟩, fun he => he.1.symm⟩
    | cons b rest =>
      rw [List.getLast?_cons_cons, ih hrest]
      constructor
      · rintro ⟨hmem, hle⟩
        refine ⟨.tail _ hmem, fun i hi => ?_⟩
        rcases List.mem_cons.mp hi with rfl | hi
        · exact (ha j hmem).le
        · exact hle i hi
      · rintro ⟨hmem, hle⟩
        refine ⟨?_, fun i hi => hle i (.tail _ hi)⟩
        rcases List.mem_cons.mp hmem with rfl | hmem
        · have hb := hle b (by simp)
          exact absurd (ha b List.mem_cons_self) (by omega)
        · exact hmem

theorem mem_placesOf_creates {changes : List Change} {kind ref : String} {j : Nat} :
    j ∈ placesOf (fun c => c.creates kind ref) changes ↔ CreatesAt changes (some kind) ref j := by
  simp only [mem_placesOf, Change.creates, Bool.and_eq_true, beq_iff_eq, CreatesAt,
    Option.some.injEq, forall_eq']
  constructor
  · rintro ⟨d, hd, ⟨haction, hkind⟩, href⟩
    exact ⟨d, hd, haction, href, hkind⟩
  · rintro ⟨d, hd, haction, href, hkind⟩
    exact ⟨d, hd, ⟨haction, hkind⟩, href⟩

theorem mem_placesOf_creates_any {changes : List Change} {ref : String} {j : Nat} :
    j ∈ placesOf (fun c => c.action == .create && c.ref == ref) changes
      ↔ CreatesAt changes none ref j := by
  simp [mem_placesOf, CreatesAt]

theorem soleCreate?_eq_some_iff {changes : List Change} {ref : String} {j : Nat} :
    soleCreate? changes ref = some j ↔ CreatesAt changes none ref j
      ∧ ∀ i, CreatesAt changes none ref i → i = j := by
  have hnodup := nodup_placesOf (fun c => c.action == .create && c.ref == ref) changes
  simp only [← mem_placesOf_creates_any]
  rw [soleCreate?]
  generalize placesOf (fun c => c.action == .create && c.ref == ref) changes = l at hnodup
  split
  · next i => simp [eq_comm]
  · next hsole =>
    simp only [reduceCtorEq, false_iff, not_and]
    intro hj hall
    match l with
    | [] => exact List.not_mem_nil hj
    | [i] => exact hsole i rfl
    | i :: k :: rest =>
      have hik : i = k := (hall i (by simp)).trans (hall k (by simp)).symm
      exact (List.nodup_cons.mp hnodup).1 (hik ▸ List.mem_cons_self)

/-- **The create looked up for a lacked resource is the one it awaits.** -/
theorem awaitedCreate?_eq_some_iff {changes : List Change} {kind : Option String} {ref : String}
    {j : Nat} : awaitedCreate? changes kind ref = some j ↔ Awaits changes kind ref j := by
  cases kind with
  | some kind =>
    rw [awaitedCreate?, lastCreate?, getLast?_eq_some_iff_of_ascending (ascending_placesOf _ _)]
    simp only [mem_placesOf_creates, Awaits, reduceCtorEq, false_implies, true_and]
  | none =>
    simp only [awaitedCreate?, soleCreate?_eq_some_iff, Awaits, forall_const]
    constructor
    · exact fun h => ⟨h.1, fun i hi => ⟨h.2 i hi, (h.2 i hi).le⟩⟩
    · exact fun h => ⟨h.1, fun i hi => (h.2 i hi).1⟩

/-! ## The table of the ordering -/

theorem mem_implicitPlaces {changes : List Change} {c : Change} {j : Nat} :
    j ∈ implicitPlaces changes c
      ↔ ∃ kind ref, c.Lacks kind ref ∧ Awaits changes kind ref j := by
  simp only [implicitPlaces, List.mem_filterMap, Prod.exists, mem_unknownReferences,
    awaitedCreate?_eq_some_iff]

theorem mem_dependencyPlaces {changes : List Change} {i j : Nat} {c : Change}
    (hc : changes[i]? = some c) : j ∈ dependencyPlaces changes i c ↔ WaitsFor changes i j := by
  simp only [dependencyPlaces, List.mem_map, List.mem_filter, Prod.exists, exists_eq_right,
    List.mk_mem_zipIdx_iff_getElem?, Bool.and_eq_true, bne_iff_ne, Bool.or_eq_true,
    List.contains_iff_mem, mem_implicitPlaces]
  constructor
  · rintro ⟨d, hd, hne, h⟩
    exact ⟨hne, c, d, hc, hd, h⟩
  · rintro ⟨hne, c', d, hc', hd, h⟩
    obtain rfl : c' = c := Option.some.inj (hc'.symm.trans hc)
    exact ⟨d, hd, hne, h⟩

theorem row_dependencyTable {changes : List Change} {i : Nat} {c : Change}
    (hc : changes[i]? = some c) :
    Agenda.row (dependencyTable changes) i = dependencyPlaces changes i c := by
  simp [Agenda.row, dependencyTable, hc]

@[simp] theorem length_dependencyTable (changes : List Change) :
    (dependencyTable changes).length = changes.length := by
  simp [dependencyTable]

/-- **The table lists what each change waits for.** -/
theorem mem_dependencyTable {changes : List Change} {i j : Nat} :
    Agenda.Needs (dependencyTable changes) i j ↔ WaitsFor changes i j := by
  unfold Agenda.Needs
  cases hc : changes[i]? with
  | some c => rw [row_dependencyTable hc, mem_dependencyPlaces hc]
  | none =>
    have hlen : changes.length ≤ i := List.getElem?_eq_none_iff.mp hc
    rw [Agenda.row_of_length_le (by rwa [length_dependencyTable])]
    simp [WaitsFor, hc]

/-- **Changes that wait for each other as those of a batch do have its table.** -/
theorem dependencyTable_map {changes : List Change} {f : Change → Change}
    (h : ∀ i c j d, changes[i]? = some c → changes[j]? = some d → j ≠ i →
      ((f d).id ∈ (f c).dependsOn ∨ j ∈ implicitPlaces (changes.map f) (f c)
        ↔ d.id ∈ c.dependsOn ∨ j ∈ implicitPlaces changes c)) :
    dependencyTable (changes.map f) = dependencyTable changes := by
  rw [dependencyTable, dependencyTable, List.zipIdx_map, List.map_map]
  refine List.map_congr_left fun ⟨c, i⟩ hc => ?_
  have hc : changes[i]? = some c := List.mk_mem_zipIdx_iff_getElem?.mp hc
  simp only [dependencyPlaces, List.zipIdx_map, List.filter_map, List.map_map, Function.comp_def]
  refine congrArg (List.map Prod.snd) (List.filter_congr fun ⟨d, j⟩ hd => ?_)
  have hd : changes[j]? = some d := List.mk_mem_zipIdx_iff_getElem?.mp hd
  rw [Bool.eq_iff_iff]
  simp only [Prod.map, id, Bool.and_eq_true, Bool.or_eq_true, bne_iff_ne, List.contains_iff_mem]
  exact and_congr_right fun hne => h i c j d hc hd hne

theorem nodup_dependencyPlaces (changes : List Change) (i : Nat) (c : Change) :
    (dependencyPlaces changes i c).Nodup := by
  refine List.Nodup.sublist (List.filter_sublist.map _) ?_
  rw [List.zipIdx_map_snd]
  exact List.nodup_range'

theorem isTable_dependencyTable (changes : List Change) :
    Agenda.IsTable (dependencyTable changes) where
  nodup i := by
    cases hc : changes[i]? with
    | some c => exact row_dependencyTable hc ▸ nodup_dependencyPlaces changes i c
    | none =>
      rw [Agenda.row_of_length_le (by simpa using List.getElem?_eq_none_iff.mp hc)]
      exact List.nodup_nil
  irrefl i hi := (mem_dependencyTable.mp hi).1 rfl

end Reconcile
