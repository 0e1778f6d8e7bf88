import Reconcile.Proofs.ChangeId
import Reconcile.Proofs.Lists

/-!
# Proofs/Numbering/Passes — the passes that rename a plan

One pass gives the identifiers of an order their new ones; others put these into the dependencies,
the changes and the warnings of a plan.  For each pass one lemma says what it gives (`…_ok`) and one
where it stops (`…_eq_error_iff`): at the first member of its list that fails (`FirstFailing`).  A
pass over members that all do well gives a result (`exists_…`).
-/

namespace Reconcile

/-! ## Renaming -/

/-- A change whose identifiers are replaced, its own and those it depends on. -/
def Change.renamed (rename : String → String) (c : Change) : Change :=
  { c with id := rename c.id, dependsOn := c.dependsOn.map rename }

/-- A remark on a change whose identifier is replaced. -/
def Warning.renamed (rename : String → String) (w : Warning) : Warning :=
  { w with changeId := rename w.changeId }

/-- A change that lists none but certain identifiers. -/
def Change.ListsAmong (ids : List String) (c : Change) : Prop := ∀ d ∈ c.dependsOn, d ∈ ids

namespace Plan

/-- The changes that an order lists, in its order. -/
def listed (p : Plan) (order : List String) : List Change := order.filterMap p.change?

/-! ## The renaming of an order -/

/-- The new identifier that a renaming gives. -/
def Renaming.apply (r : Renaming) (id : String) : String := (r.lookup id).getD id

theorem apply_of_lookup {r : Renaming} {old new : String} (h : r.lookup old = some new) :
    r.apply old = new := by simp [Renaming.apply, h]

/-- An order is renamed place by place. -/
theorem forall₂_renamingFrom {n : Nat} {order : List String} {r : Renaming}
    (h : renamingFrom n order = .ok r) : r.map (·.1) = order ∧
      ∀ k old new, r[k]? = some (old, new) → ChangeId.moved? old (n + k) = some new := by
  induction order generalizing n r with
  | nil =>
    obtain rfl := Except.ok.inj h
    simp
  | cons id rest ih =>
    unfold renamingFrom at h
    cases hmoved : ChangeId.moved? id n with
    | none => simp [hmoved] at h
    | some new =>
      rw [hmoved] at h
      cases hrest : renamingFrom (n + 1) rest with
      | error e => simp [hrest, Except.map] at h
      | ok r' =>
        obtain rfl : (id, new) :: r' = r := by simpa [hrest, Except.map] using h
        obtain ⟨hkeys, hpos⟩ := ih hrest
        refine ⟨by simp [hkeys], fun k old new' hk => ?_⟩
        cases k with
        | zero =>
          obtain ⟨rfl, rfl⟩ := Prod.mk.inj (Option.some.inj hk)
          exact hmoved
        | succ k =>
          rw [← hpos k old new' (by simpa using hk)]
          congr 1
          omega

/-- What an order renames can be read. -/
theorem readable_of_renamingFrom {n : Nat} {order : List String} {r : Renaming}
    (h : renamingFrom n order = .ok r) : ∀ id ∈ order, (ChangeId.parse? id).isSome = true := by
  obtain ⟨rfl, hmoved⟩ := forall₂_renamingFrom h
  intro id hid
  obtain ⟨⟨old, new⟩, he, rfl⟩ := List.mem_map.mp hid
  obtain ⟨k, hk⟩ := List.mem_iff_getElem?.mp he
  have hnew := congrArg Option.isSome (hmoved k old new hk)
  rwa [ChangeId.moved?, Option.isSome_map] at hnew

theorem lookup_of_getElem? {r : Renaming} (hnodup : (r.map (·.1)).Nodup) {k : Nat}
    {old new : String} (h : r[k]? = some (old, new)) : r.lookup old = some new := by
  induction r generalizing k with
  | nil => simp at h
  | cons e rest ih =>
    obtain ⟨hfresh, hrest⟩ := List.nodup_cons.mp hnodup
    cases k with
    | zero =>
      obtain rfl : e = (old, new) := by simpa using h
      simp
    | succ k =>
      have hget : rest[k]? = some (old, new) := by simpa using h
      have hmem : old ∈ rest.map (·.1) := List.mem_map.mpr ⟨_, List.mem_of_getElem? hget, rfl⟩
      have hne : old ≠ e.1 := by
        rintro rfl
        exact hfresh hmem
      rw [List.lookup_cons, beq_false_of_ne hne]
      exact ih hrest hget

theorem mem_of_lookup {r : Renaming} {old new : String} (h : r.lookup old = some new) :
    old ∈ r.map (·.1) :=
  List.mem_map.mpr ⟨_, mem_of_lookup_eq_some h, rfl⟩

theorem exists_lookup {r : Renaming} {id : String} (h : id ∈ r.map (·.1)) :
    ∃ new, r.lookup id = some new := by
  rcases hlookup : r.lookup id with _ | new
  · obtain ⟨e, he, rfl⟩ := List.mem_map.mp h
    exact absurd (List.lookup_eq_none_iff.mp hlookup e he) (by simp)
  · exact ⟨new, rfl⟩

theorem lookup_eq_none_of_notMem {r : Renaming} {id : String} (h : id ∉ r.map (·.1)) :
    r.lookup id = none := by
  rcases hlookup : r.lookup id with _ | new
  · rfl
  · exact absurd (mem_of_lookup hlookup) h

/-! ## What each pass gives -/

theorem renameDependencies_ok {r : Renaming} {id : String} {deps new : List String}
    (h : renameDependencies r id deps = .ok new) :
    new = deps.map r.apply ∧ ∀ d ∈ deps, d ∈ r.map (·.1) := by
  induction deps generalizing new with
  | nil =>
    obtain rfl := Except.ok.inj h
    simp
  | cons d rest ih =>
    unfold renameDependencies at h
    cases hlookup : r.lookup d with
    | none => simp [hlookup] at h
    | some d' =>
      rw [hlookup] at h
      cases hrest : renameDependencies r id rest with
      | error e => simp [hrest, Except.map] at h
      | ok l =>
        obtain rfl : d' :: l = new := by simpa [hrest, Except.map] using h
        obtain ⟨rfl, hmem⟩ := ih hrest
        refine ⟨by simp [apply_of_lookup hlookup], fun e he => ?_⟩
        rcases List.mem_cons.mp he with rfl | he
        · exact mem_of_lookup hlookup
        · exact hmem e he

theorem renameChange_ok {r : Renaming} {c c' : Change} (h : renameChange r c = .ok c') :
    c' = c.renamed r.apply ∧ ∀ d ∈ c.dependsOn, d ∈ r.map (·.1) := by
  unfold renameChange at h
  cases hdeps : renameDependencies r c.id c.dependsOn with
  | error e => simp [hdeps] at h
  | ok deps =>
    rw [hdeps] at h
    cases hlookup : r.lookup c.id with
    | none => simp [hlookup] at h
    | some id =>
      obtain ⟨rfl, hmem⟩ := renameDependencies_ok hdeps
      obtain rfl : _ = c' := by simpa [hlookup] using h
      exact ⟨by rw [Change.renamed, apply_of_lookup hlookup], hmem⟩

theorem renameChanges_ok {r : Renaming} {p : Plan} {expected found : Nat} {order : List String}
    {changes : List Change} (h : renameChanges r p expected found order = .ok changes) :
    List.Forall₂ (fun id c => ∃ b ∈ p.changes, b.id = id ∧ c = b.renamed r.apply
      ∧ ∀ d ∈ b.dependsOn, d ∈ r.map (·.1)) order changes := by
  induction order generalizing changes with
  | nil =>
    obtain rfl := Except.ok.inj h
    exact .nil
  | cons id rest ih =>
    unfold renameChanges at h
    cases hfind : p.change? id with
    | none => simp [hfind] at h
    | some c =>
      rw [hfind] at h
      cases hrename : renameChange r c with
      | error e => simp [hrename] at h
      | ok c' =>
        cases hrest : renameChanges r p expected found rest with
        | error e => simp [hrename, hrest, Except.map] at h
        | ok l =>
          obtain rfl : c' :: l = changes := by simpa [hrename, hrest, Except.map] using h
          obtain ⟨rfl, hmem⟩ := renameChange_ok hrename
          have hid : c.id = id := by simpa using List.find?_some hfind
          exact .cons ⟨c, List.mem_of_find?_eq_some hfind, hid, rfl, hmem⟩ (ih hrest)

theorem renameWarnings_ok {r : Renaming} {ws new : List Warning}
    (h : renameWarnings r ws = .ok new) :
    new = ws.map (Warning.renamed r.apply) ∧ ∀ w ∈ ws, w.changeId ∈ r.map (·.1) := by
  induction ws generalizing new with
  | nil =>
    obtain rfl := Except.ok.inj h
    simp
  | cons w rest ih =>
    unfold renameWarnings at h
    cases hlookup : r.lookup w.changeId with
    | none => simp [hlookup] at h
    | some id =>
      rw [hlookup] at h
      cases hrest : renameWarnings r rest with
      | error e => simp [hrest, Except.map] at h
      | ok l =>
        obtain rfl : { w with changeId := id } :: l = new := by
          simpa [hrest, Except.map] using h
        obtain ⟨rfl, hmem⟩ := ih hrest
        refine ⟨by simp [Warning.renamed, apply_of_lookup hlookup], fun v hv => ?_⟩
        rcases List.mem_cons.mp hv with rfl | hv
        · exact mem_of_lookup hlookup
        · exact hmem v hv

/-! ## Where each pass stops -/

section Passes

variable {r : Renaming} {p : Plan} {e : PlanFault}

theorem map_eq_error_iff {α β : Type} {x : Except PlanFault α} {f : α → β} :
    x.map f = .error e ↔ x = .error e := by
  cases x <;> simp [Except.map]

theorem exists_ok_of_ne_error {α : Type} {x : Except PlanFault α} (h : ∀ e, x ≠ .error e) :
    ∃ a, x = .ok a := by
  cases x with
  | error e => exact absurd rfl (h e)
  | ok a => exact ⟨a, rfl⟩

/-- Naming stops at the first identifier that cannot be read. -/
theorem renamingFrom_eq_error_iff {n : Nat} {order : List String} :
    renamingFrom n order = .error e
      ↔ ∃ id, FirstFailing (fun s => (ChangeId.parse? s).isSome = true) order id
        ∧ e = .invalidId id := by
  induction order generalizing n with
  | nil => simp [renamingFrom]
  | cons id rest ih =>
    unfold renamingFrom ChangeId.moved?
    rcases hparse : ChangeId.parse? id with _ | c
    · simp [firstFailing_cons_of_neg, hparse, eq_comm (b := e)]
    · simp [firstFailing_cons_of_pos, hparse, map_eq_error_iff, ih]

theorem exists_renamingFrom {order : List String}
    (h : ∀ id ∈ order, (ChangeId.parse? id).isSome = true) (n : Nat) :
    ∃ r, renamingFrom n order = .ok r := by
  refine exists_ok_of_ne_error fun e he => ?_
  obtain ⟨id, hid, -⟩ := renamingFrom_eq_error_iff.mp he
  exact not_firstFailing_of_forall h id hid

/-- Renaming dependencies stops at the first one without a new identifier. -/
theorem renameDependencies_eq_error_iff {id : String} {deps : List String} :
    renameDependencies r id deps = .error e
      ↔ ∃ d, FirstFailing (· ∈ r.map (·.1)) deps d ∧ e = .unknownDependency id d := by
  induction deps with
  | nil => simp [renameDependencies]
  | cons d rest ih =>
    unfold renameDependencies
    by_cases hd : d ∈ r.map (·.1)
    · obtain ⟨new, hnew⟩ := exists_lookup hd
      simp only [hnew, map_eq_error_iff, ih, firstFailing_cons_of_pos hd]
    · simp only [lookup_eq_none_of_notMem hd, firstFailing_cons_of_neg hd, Except.error.injEq,
        exists_eq_left', eq_comm (b := e)]

theorem renameChange_eq_error_iff {c : Change} (hid : c.id ∈ r.map (·.1)) :
    renameChange r c = .error e
      ↔ ∃ d, FirstFailing (· ∈ r.map (·.1)) c.dependsOn d ∧ e = .unknownDependency c.id d := by
  rw [← renameDependencies_eq_error_iff]
  obtain ⟨new, hnew⟩ := exists_lookup hid
  unfold renameChange
  cases renameDependencies r c.id c.dependsOn with
  | error e' => simp only [Except.error.injEq]
  | ok deps => simp [hnew]

theorem exists_renameChange {c : Change} (hid : c.id ∈ r.map (·.1))
    (hdeps : c.ListsAmong (r.map (·.1))) : ∃ c', renameChange r c = .ok c' := by
  refine exists_ok_of_ne_error fun e he => ?_
  obtain ⟨d, hd, -⟩ := (renameChange_eq_error_iff hid).mp he
  exact not_firstFailing_of_forall hdeps d hd

/-- A change is found under each identifier of the plan. -/
theorem exists_change? {p : Plan} {id : String} (h : id ∈ p.ids) :
    ∃ c ∈ p.changes, p.change? id = some c ∧ c.id = id := by
  obtain ⟨b, hb, hid⟩ := List.mem_map.mp h
  obtain ⟨c, hc⟩ := Option.isSome_iff_exists.mp
    (List.find?_isSome.mpr ⟨b, hb, by simpa using hid⟩ : (p.change? id).isSome = true)
  exact ⟨c, List.mem_of_find?_eq_some hc, hc, by simpa using List.find?_some hc⟩

/-- Renaming changes stops at the first one that lists a dependency without a new identifier. -/
theorem renameChanges_eq_error_iff {expected found : Nat} {order : List String}
    (horder : ∀ id ∈ order, id ∈ p.ids) (hkeys : ∀ id ∈ order, id ∈ r.map (·.1)) :
    renameChanges r p expected found order = .error e
      ↔ ∃ c, FirstFailing (Change.ListsAmong (r.map (·.1))) (p.listed order) c
        ∧ ∃ d, FirstFailing (· ∈ r.map (·.1)) c.dependsOn d ∧ e = .unknownDependency c.id d := by
  induction order with
  | nil => simp [renameChanges, listed]
  | cons id rest ih =>
    obtain ⟨c, -, hc, hcid⟩ := exists_change? (horder id List.mem_cons_self)
    have hkey : c.id ∈ r.map (·.1) := hcid ▸ hkeys id List.mem_cons_self
    have hrest := ih (fun id hid => horder id (.tail _ hid)) fun id hid => hkeys id (.tail _ hid)
    unfold renameChanges
    rw [listed, List.filterMap_cons_some hc, hc]
    dsimp only
    by_cases hdeps : c.ListsAmong (r.map (·.1))
    · obtain ⟨c', hc'⟩ := exists_renameChange hkey hdeps
      simp only [hc', map_eq_error_iff, hrest, firstFailing_cons_of_pos hdeps, listed]
    · rcases hrename : renameChange r c with e' | c'
      · simp only [firstFailing_cons_of_neg hdeps, exists_eq_left',
          ← renameChange_eq_error_iff hkey, hrename, Except.error.injEq]
      · exact absurd (renameChange_ok hrename).2 hdeps

theorem exists_renameChanges {order : List String} (hkeys : ∀ id ∈ p.ids, id ∈ r.map (·.1))
    (horder : ∀ id ∈ order, id ∈ p.ids)
    (hknown : ∀ c ∈ p.changes, ∀ d ∈ c.dependsOn, d ∈ p.ids) (expected found : Nat) :
    ∃ changes, renameChanges r p expected found order = .ok changes := by
  refine exists_ok_of_ne_error fun e he => ?_
  rw [renameChanges_eq_error_iff horder fun id hid => hkeys id (horder id hid)] at he
  obtain ⟨c, hc, -⟩ := he
  refine not_firstFailing_of_forall (fun b hb d hd => ?_) c hc
  obtain ⟨id, -, hb⟩ := List.mem_filterMap.mp hb
  exact hkeys d (hknown b (List.mem_of_find?_eq_some hb) d hd)

/-- Renaming warnings stops at the first one on an identifier without a new one. -/
theorem renameWarnings_eq_error_iff {ws : List Warning} :
    renameWarnings r ws = .error e
      ↔ ∃ w, FirstFailing (fun v : Warning => v.changeId ∈ r.map (·.1)) ws w
        ∧ e = .invalidId w.changeId := by
  induction ws with
  | nil => simp [renameWarnings]
  | cons w rest ih =>
    unfold renameWarnings
    by_cases hw : w.changeId ∈ r.map (·.1)
    · obtain ⟨new, hnew⟩ := exists_lookup hw
      simp only [hnew, map_eq_error_iff, ih, firstFailing_cons_of_pos, hw]
    · simp only [lookup_eq_none_of_notMem hw, firstFailing_cons_of_neg, hw, Except.error.injEq,
        exists_eq_left', eq_comm (b := e), not_false_eq_true]

theorem exists_renameWarnings {ws : List Warning} (h : ∀ w ∈ ws, w.changeId ∈ r.map (·.1)) :
    ∃ new, renameWarnings r ws = .ok new := by
  refine exists_ok_of_ne_error fun e he => ?_
  obtain ⟨w, hw, -⟩ := renameWarnings_eq_error_iff.mp he
  exact not_firstFailing_of_forall h w hw

end Passes

end Plan

end Reconcile
