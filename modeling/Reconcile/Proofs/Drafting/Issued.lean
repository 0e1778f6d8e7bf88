import Reconcile.Proofs.Drafting.Sketches
import Reconcile.Proofs.Scopes
import Mathlib.Algebra.Order.BigOperators.Group.List
import Mathlib.Algebra.Order.Ring.Nat
import Mathlib.Data.List.ProdSigma
import Mathlib.Data.Nat.ModEq

/-!
# Proofs/Drafting/Issued — the identifiers that a draft issues

The changes of a draft are numbered one after the other (`Sketch.Counted`), by a counter of 64 bits.
As long as it does not overflow, identifiers are distinct.  Main facts: `Sketch.Counted.nodup_ids`
and `Scene.length_changes_le` — there are at most as many changes as declarations, and two for each
resource that exists, one for its own namespace and one for the wildcard as a namespace.
-/

namespace Reconcile

/-! ## Counting -/

section Counting

variable {ι α β : Type}

/-- What has one key is counted once where keys are distinct. -/
theorem countP_le_one {l : List ι} {key : ι → β} (hnodup : (l.map key).Nodup) {p : ι → Bool} {b : β}
    (h : ∀ i, p i = true → key i = b) : l.countP p ≤ 1 := by
  classical
  calc l.countP p ≤ l.countP fun i => key i == b :=
        List.countP_mono_left fun i _ hi => beq_iff_eq.mpr (h i hi)
    _ = (l.map key).count b := by
        rw [List.count, List.countP_map]
        rfl
    _ ≤ 1 := List.nodup_iff_count_le_one.mp hnodup b

theorem sum_length_filter_cons (p : ι → α → Bool) (is : List ι) (a : α) (l : List α) :
    (is.map fun i => ((a :: l).filter (p i)).length).sum
      = is.countP (fun i => p i a) + (is.map fun i => (l.filter (p i)).length).sum := by
  induction is with
  | nil => rfl
  | cons i is ih =>
    rw [List.map_cons, List.sum_cons, ih, List.countP_cons, List.map_cons, List.sum_cons]
    by_cases hpassed : p i a = true
    · rw [List.filter_cons_of_pos hpassed, List.length_cons, if_pos hpassed]
      omega
    · rw [List.filter_cons_of_neg hpassed, if_neg hpassed]
      omega

/-- **What every member passes at most once adds up to no more than the members.** -/
theorem sum_length_filter_le {p : ι → α → Bool} {is : List ι} {l : List α}
    (h : ∀ a ∈ l, is.countP (fun i => p i a) ≤ 1) :
    (is.map fun i => (l.filter (p i)).length).sum ≤ l.length := by
  induction l with
  | nil => simp
  | cons a rest ih =>
    have hfirst := h a List.mem_cons_self
    have hrest := ih fun b hb => h b (List.mem_cons_of_mem a hb)
    rw [sum_length_filter_cons, List.length_cons]
    omega

/-- What passes a test that comes down to one of two others. -/
theorem length_filter_le_add {p q r : α → Bool} (h : ∀ a, p a = true → q a = true ∨ r a = true)
    (l : List α) : (l.filter p).length ≤ (l.filter q).length + (l.filter r).length := by
  calc (l.filter p).length ≤ (l.filter fun a => q a || r a).length := by
        simp only [← List.countP_eq_length_filter]
        exact List.countP_mono_left fun a _ ha => Bool.or_eq_true_iff.mpr (h a ha)
    _ ≤ (l.filter q).length + (l.filter r).length := by
        induction l with
        | nil => exact Nat.le_refl _
        | cons a rest ih =>
          cases hq : q a <;> cases hr : r a <;>
            simp only [List.filter_cons, hq, hr, Bool.or_self, Bool.or_true, Bool.or_false, if_true,
              Bool.false_eq_true, if_false, List.length_cons] <;> omega

end Counting

/-! ## Positions -/

theorem nextPosition_lt (issued : Issued) : nextPosition issued < ChangeId.positionLimit :=
  Nat.mod_lt _ (Nat.pow_pos (by decide))

/-- Until they overflow, positions are distinct. -/
theorem nextPosition_injOn {i j : Nat} (hi : i < ChangeId.positionLimit)
    (hj : j < ChangeId.positionLimit) (h : nextPosition i = nextPosition j) : i = j := by
  have hmod : i ≡ j [MOD ChangeId.positionLimit] := Nat.ModEq.add_right_cancel' 1 h
  rwa [Nat.ModEq, Nat.mod_eq_of_lt hi, Nat.mod_eq_of_lt hj] at hmod

/-- **The changes of a draft are numbered one after the other.** -/
structure Sketch.Counted (s : Sketch) : Prop where
  issued : s.issued = s.changes.length
  id : ∀ (i : Nat) e, s.changes[i]? = some e → e.id = freshId i e.action e.kind e.ref

namespace Sketch.Counted

variable {s : Sketch}

/-- The change at a place tells the place, until the counter overflows. -/
theorem place_eq (h : s.Counted) (hlength : s.changes.length ≤ ChangeId.positionLimit) {i j : Nat}
    {a b : Change} (ha : s.changes[i]? = some a) (hb : s.changes[j]? = some b)
    (hid : a.id = b.id) : i = j := by
  have hi := (List.getElem?_eq_some_iff.mp ha).1
  have hj := (List.getElem?_eq_some_iff.mp hb).1
  rw [h.id i a ha, h.id j b hb] at hid
  exact nextPosition_injOn (hi.trans_le hlength) (hj.trans_le hlength)
    (ChangeId.position_eq_of_text_eq hid)

/-- **Until the counter overflows, identifiers are distinct.** -/
theorem nodup_ids (h : s.Counted) (hlength : s.changes.length ≤ ChangeId.positionLimit) :
    (s.changes.map (·.id)).Nodup := by
  refine List.pairwise_map.mpr (List.pairwise_iff_getElem.mpr fun i j hi hj hlt hid => ?_)
  exact hlt.ne (h.place_eq hlength (List.getElem?_eq_getElem hi) (List.getElem?_eq_getElem hj) hid)

/-- Every identifier has a position that can be read back. -/
theorem exists_id_eq (h : s.Counted) {e : Change} (he : e ∈ s.changes) :
    ∃ n < ChangeId.positionLimit, e.id = (ChangeId.mk n e.action e.kind e.ref).text := by
  obtain ⟨i, hi⟩ := List.mem_iff_getElem?.mp he
  exact ⟨nextPosition i, nextPosition_lt i, h.id i e hi⟩

/-- The next change takes the next identifier. -/
theorem add (h : s.Counted) {e : Change} (he : e.id = freshId s.issued e.action e.kind e.ref) :
    Sketch.Counted { s with changes := s.changes ++ [e], issued := s.issued + 1 } := by
  refine ⟨by simp [h.issued], fun i b hb => ?_⟩
  rcases Nat.lt_or_ge i s.changes.length with hlt | hge
  · rw [List.getElem?_append_left hlt] at hb
    exact h.id i b hb
  · rw [List.getElem?_append_right hge, List.getElem?_singleton] at hb
    split at hb
    · next hplace =>
      obtain rfl := Option.some.inj hb
      have hlength : i = s.changes.length := by omega
      rw [he, h.issued, hlength]
    · exact absurd hb (by simp)

end Sketch.Counted

namespace Scene

variable {c : Scene} {ks : List KindPlanner} {scope : String} {k : KindPlanner} {s s' : Sketch}
  {t : Task} {ts : List Task} {e : Change}

theorem counted_step (hs : s.Counted) (h : c.step s t = .ok s') : s'.Counted := by
  rcases step_cases h with ⟨-, rfl⟩ | ⟨v, -, rfl⟩ | ⟨e, hplanned, rfl⟩
  · exact hs
  · exact ⟨hs.issued, hs.id⟩
  · exact hs.add (id_of_planned hplanned)

theorem counted_of_run (h : c.run ts {} = .ok s) : s.Counted :=
  run_induction (I := Sketch.Counted) (fun _ _ _ _ hs hstep => counted_step hs hstep)
    ⟨rfl, by simp⟩ h

/-! ## How many changes there are -/

/-- Every task adds at most one change. -/
theorem length_changes_of_run (h : c.run ts s = .ok s') :
    s'.changes.length ≤ s.changes.length + ts.length := by
  induction ts generalizing s with
  | nil =>
    obtain rfl := Except.ok.inj h
    exact Nat.le_refl _
  | cons t rest ih =>
    obtain ⟨s₁, hstep, hrest⟩ := run_cons_ok h
    have hfirst : s₁.changes.length ≤ s.changes.length + 1 := by
      rcases changes_step hstep with heq | ⟨e, -, heq⟩ <;> rw [heq] <;> simp
    have hbehind := ih hrest
    rw [List.length_cons]
    omega

/-- A planner has a task for each declaration of its kind in a namespace, and at most one for each
resource there. -/
theorem length_tasksOf_le (c : Scene) (scope : String) (k : KindPlanner) :
    (c.tasksOf scope k).length
      ≤ (c.desired.inScope k.kind scope).length + (c.snapshot.managedIn k.kind scope).length := by
  unfold tasksOf
  split
  · rw [List.length_append, List.length_map]
    refine Nat.add_le_add_left ?_ _
    rcases c.mode with _ | _
    · exact Nat.zero_le _
    · rw [List.length_map]
      exact List.length_filter_le _ _
  · exact Nat.zero_le _

/-- A namespace has its own resources, and the wildcard has all of them. -/
theorem length_managedIn_le (snap : Snapshot) (kind scope : String) :
    (snap.managedIn kind scope).length
      ≤ (snap.resources.filter fun r => r.kind == kind && r.scope == scope).length
        + (snap.resources.filter fun r => r.kind == kind && scope == wildcard).length := by
  refine length_filter_le_add (fun r hr => ?_) snap.resources
  simp only [Bool.and_eq_true, Bool.or_eq_true] at hr ⊢
  exact hr.2.symm.imp (fun hown => ⟨hr.1.1, hown⟩) fun hwild => ⟨hr.1.1, hwild⟩

/-- The rounds of a pass: each planner in each namespace. -/
def rounds (c : Scene) (ks : List KindPlanner) : List (String × KindPlanner) :=
  (planningScopes c.desired c.mode).product ks

theorem tasks_eq_rounds (c : Scene) (ks : List KindPlanner) :
    c.tasks ks = (c.rounds ks).flatMap fun x => c.tasksOf x.1 x.2 := by
  simp only [tasks, rounds, List.product, List.flatMap_assoc, List.flatMap_map]

/-- Namespace and kind tell rounds apart. -/
theorem nodup_rounds (c : Scene) (hkinds : (ks.map KindPlanner.kind).Nodup) :
    ((c.rounds ks).map fun x => (x.1, x.2.kind)).Nodup := by
  have hsame : ((c.rounds ks).map fun x => (x.1, x.2.kind))
      = (planningScopes c.desired c.mode).product (ks.map KindPlanner.kind) := by
    simp only [rounds, List.product, List.map_flatMap, List.map_map]
    rfl
  rw [hsame]
  exact (nodup_planningScopes c.desired c.mode).product hkinds

/-- **What has a part in one round alone** adds up to no more than there is. -/
theorem sum_length_rounds_le {α : Type} (c : Scene) (hkinds : (ks.map KindPlanner.kind).Nodup)
    {p : String × KindPlanner → α → Bool} (round : α → String × String)
    (h : ∀ a x, p x a = true → (x.1, x.2.kind) = round a) (l : List α) :
    ((c.rounds ks).map fun x => (l.filter (p x)).length).sum ≤ l.length :=
  sum_length_filter_le fun a _ => countP_le_one (c.nodup_rounds hkinds) (h a)

/-- **There are at most as many tasks as declarations, and two for each resource.** -/
theorem length_tasks_le (c : Scene) (hkinds : (ks.map KindPlanner.kind).Nodup) :
    (c.tasks ks).length ≤ c.desired.resources.length + 2 * c.snapshot.resources.length := by
  have hdeclared : ((c.rounds ks).map fun x => (c.desired.inScope x.2.kind x.1).length).sum
      ≤ c.desired.resources.length :=
    c.sum_length_rounds_le hkinds (fun d => (c.desired.scopeOf d, d.kind)) (fun d x hx => by
      simp only [Bool.and_eq_true, beq_iff_eq] at hx
      rw [hx.1, hx.2]) c.desired.resources
  have howned : ((c.rounds ks).map fun x => (c.snapshot.resources.filter fun r =>
        r.kind == x.2.kind && r.scope == x.1).length).sum ≤ c.snapshot.resources.length :=
    c.sum_length_rounds_le hkinds (fun r => (r.scope, r.kind)) (fun r x hx => by
      simp only [Bool.and_eq_true, beq_iff_eq] at hx
      rw [hx.1, hx.2]) c.snapshot.resources
  have hwild : ((c.rounds ks).map fun x => (c.snapshot.resources.filter fun r =>
        r.kind == x.2.kind && x.1 == wildcard).length).sum ≤ c.snapshot.resources.length :=
    c.sum_length_rounds_le hkinds (fun r => (wildcard, r.kind)) (fun r x hx => by
      simp only [Bool.and_eq_true, beq_iff_eq] at hx
      rw [hx.1, hx.2]) c.snapshot.resources
  have hle : ((c.rounds ks).map fun x => (c.tasksOf x.1 x.2).length).sum
      ≤ ((c.rounds ks).map fun x => (c.desired.inScope x.2.kind x.1).length
        + ((c.snapshot.resources.filter fun r => r.kind == x.2.kind && r.scope == x.1).length
          + (c.snapshot.resources.filter fun r =>
            r.kind == x.2.kind && x.1 == wildcard).length)).sum :=
    List.sum_le_sum fun x _ => (length_tasksOf_le c x.1 x.2).trans
      (Nat.add_le_add_left (length_managedIn_le c.snapshot x.2.kind x.1) _)
  rw [List.sum_map_add, List.sum_map_add] at hle
  rw [tasks_eq_rounds, List.length_flatMap]
  omega

/-- **A draft has at most as many changes as there are declarations, and two for each resource.** -/
theorem length_changes_le (hkinds : (ks.map KindPlanner.kind).Nodup)
    (h : c.run (c.tasks ks) {} = .ok s) :
    s.changes.length ≤ c.desired.resources.length + 2 * c.snapshot.resources.length := by
  have hrun := length_changes_of_run h
  have htasks := length_tasks_le c hkinds
  simp only [List.length_nil] at hrun
  omega

end Scene

end Reconcile
