import Mathlib.Data.Set.Card
import Mathlib.Logic.Relation
import Reconcile.Proofs.Order.Existence

/-!
# Proofs/Order/Diagnosis — what the ordering reports

The ordering checks three things, one after the other: that no identifier is repeated, that no
listed dependency dangles, and that no change waits for itself along other ones.  What it says tells
exactly which check failed, and where (`Diagnoses`, `diagnoses_executionOrder`).

* `firstRepeated?_eq_some`, `danglingDependency?_eq_some` — the two look-ups report what comes first
  in the list.
* `exists_rank_iff` — a batch whose waiting goes round in no circle can be ranked, by the number of
  places that a place waits for directly or not; so the ordering gets stuck on a circle only.
-/

namespace Reconcile

/-! ## What comes first -/

/-- **The first repeated member** of a list: it occurs in front, where all are distinct. -/
def FirstRepeated (l : List String) (s : String) : Prop :=
  ∃ front rest, l = front ++ s :: rest ∧ front.Nodup ∧ s ∈ front

theorem firstRepeatedGo_eq_some {seen l : List String} {s : String} :
    firstRepeated?.go seen l = some s ↔ ∃ front rest, l = front ++ s :: rest ∧ front.Nodup
      ∧ (∀ t ∈ front, t ∉ seen) ∧ (s ∈ seen ∨ s ∈ front) := by
  induction l generalizing seen with
  | nil => simp [firstRepeated?.go]
  | cons t l ih =>
    unfold firstRepeated?.go
    split
    · next ht =>
      -- a member seen before is the first one, and nothing can be in front of it
      rw [Option.some.injEq]
      constructor
      · rintro rfl
        exact ⟨[], l, rfl, List.nodup_nil, by simp, .inl ht⟩
      · rintro ⟨front, rest, hl, -, hfresh, -⟩
        cases front with
        | nil => exact (List.cons.inj hl).1
        | cons x front =>
          obtain rfl : t = x := (List.cons.inj hl).1
          exact absurd ht (hfresh t List.mem_cons_self)
    · next ht =>
      rw [ih]
      constructor
      · rintro ⟨front, rest, rfl, hnodup, hfresh, hs⟩
        have htfront : t ∉ front := fun hmem => hfresh t hmem List.mem_cons_self
        refine ⟨t :: front, rest, rfl, List.nodup_cons.mpr ⟨htfront, hnodup⟩, ?_, ?_⟩
        · intro x hx
          rcases List.mem_cons.mp hx with rfl | hx
          · exact ht
          · exact fun hseen => hfresh x hx (.tail _ hseen)
        · simpa only [List.mem_cons, or_comm, or_assoc, or_left_comm] using hs
      · rintro ⟨front, rest, hl, hnodup, hfresh, hs⟩
        cases front with
        | nil =>
          obtain rfl : t = s := (List.cons.inj hl).1
          exact absurd hs (by simp [ht])
        | cons x front =>
          obtain ⟨rfl, rfl⟩ := List.cons.inj hl
          obtain ⟨htfront, hnodup⟩ := List.nodup_cons.mp hnodup
          refine ⟨front, rest, rfl, hnodup, fun x hx hseen => ?_, ?_⟩
          · rcases List.mem_cons.mp hseen with rfl | hseen
            · exact htfront hx
            · exact hfresh x (.tail _ hx) hseen
          · simpa only [List.mem_cons, or_comm, or_assoc, or_left_comm] using hs

theorem firstRepeated?_eq_some {l : List String} {s : String} :
    firstRepeated? l = some s ↔ FirstRepeated l s := by
  rw [firstRepeated?, firstRepeatedGo_eq_some]
  simp [FirstRepeated]

/-- **The first dependency that names no change**: the changes in front list identifiers of the
batch, and so does the change itself in front of the dependency. -/
def FirstDangling (changes : List Change) (id dependency : String) : Prop :=
  ∃ front c rest known more, changes = front ++ c :: rest ∧ c.id = id
    ∧ c.dependsOn = known ++ dependency :: more
    ∧ (∀ b ∈ front, ∀ d ∈ b.dependsOn, d ∈ changes.map (·.id))
    ∧ (∀ d ∈ known, d ∈ changes.map (·.id)) ∧ dependency ∉ changes.map (·.id)

theorem danglingDependency?_eq_some {changes : List Change} {id dependency : String} :
    danglingDependency? changes = some (id, dependency)
      ↔ FirstDangling changes id dependency := by
  simp only [danglingDependency?, FirstDangling, List.findSome?_eq_some_iff,
    Option.map_eq_some_iff, Option.map_eq_none_iff, List.find?_eq_none, Prod.mk.injEq,
    List.find?_eq_some_iff_append, Bool.not_eq_true', List.contains_eq_mem, Bool.not_eq_false',
    decide_eq_true_eq, decide_eq_false_iff_not, not_not]
  constructor
  · rintro ⟨front, c, rest, hchanges, ⟨d, ⟨hd, known, more, hdepends, hknown⟩, rfl, rfl⟩, hfront⟩
    exact ⟨front, c, rest, known, more, hchanges, rfl, hdepends, hfront, hknown, hd⟩
  · rintro ⟨front, c, rest, known, more, hchanges, rfl, hdepends, hfront, hknown, hd⟩
    exact ⟨front, c, rest, hchanges, ⟨_, ⟨hd, known, more, hdepends, hknown⟩, rfl, rfl⟩, hfront⟩

/-! ## Circles and ranks -/

/-- **Some change waits for itself**, along at least one other one. -/
def WaitsInCircle (changes : List Change) : Prop :=
  ∃ i, Relation.TransGen (WaitsFor changes) i i

/-- Ranks that fall along a relation fall along chains of it. -/
theorem rank_lt_of_transGen {α : Type} {r : α → α → Prop} {rank : α → Nat}
    (hrank : ∀ a b, r a b → rank b < rank a) {a b : α} (h : Relation.TransGen r a b) :
    rank b < rank a := by
  induction h with
  | single hab => exact hrank _ _ hab
  | tail _ hbc ih => exact (hrank _ _ hbc).trans ih

theorem lt_length_of_waits {changes : List Change} {i j : Nat}
    (h : Relation.TransGen (WaitsFor changes) i j) : j < changes.length := by
  obtain ⟨_, -, -, -, d, -, hd, -⟩ := Relation.TransGen.tail'_iff.mp h
  exact (List.getElem?_eq_some_iff.mp hd).1

/-- A place that waits for itself nowhere waits, directly or not, for fewer places than those that
wait for it. -/
theorem ncard_waits_lt {changes : List Change} {i j : Nat} (hij : WaitsFor changes i j)
    (hnone : ¬ Relation.TransGen (WaitsFor changes) j j) :
    {k | Relation.TransGen (WaitsFor changes) j k}.ncard
      < {k | Relation.TransGen (WaitsFor changes) i k}.ncard := by
  have hfinite : {k | Relation.TransGen (WaitsFor changes) i k}.Finite :=
    (Set.finite_Iio changes.length).subset fun _ hk => lt_length_of_waits hk
  exact Set.ncard_lt_ncard
    ⟨fun k hjk => .head hij hjk, fun hsub => hnone (hsub (.single hij))⟩ hfinite

/-- **A batch can be ranked if and only if its waiting goes round in no circle.** -/
theorem exists_rank_iff {changes : List Change} :
    (∃ rank : Nat → Nat, ∀ i j, WaitsFor changes i j → rank j < rank i)
      ↔ ¬ WaitsInCircle changes := by
  constructor
  · rintro ⟨rank, hrank⟩ ⟨i, hcircle⟩
    exact Nat.lt_irrefl _ (rank_lt_of_transGen hrank hcircle)
  · exact fun hnone => ⟨fun i => {j | Relation.TransGen (WaitsFor changes) i j}.ncard,
      fun i j hij => ncard_waits_lt hij fun hcircle => hnone ⟨j, hcircle⟩⟩

/-! ## The stages of the ordering -/

section Stages

variable {changes : List Change}

theorem executionOrder_eq_duplicateId_iff {id : String} :
    executionOrder changes = .error (.duplicateId id)
      ↔ firstRepeated? (changes.map (·.id)) = some id := by
  unfold executionOrder
  cases firstRepeated? (changes.map (·.id)) with
  | some s => simp
  | none =>
    cases danglingDependency? changes with
    | some e => simp
    | none => simp [ite_eq_iff, cycleFault]

theorem executionOrder_eq_unknownDependency_iff {id d : String} :
    executionOrder changes = .error (.unknownDependency id d)
      ↔ firstRepeated? (changes.map (·.id)) = none
        ∧ danglingDependency? changes = some (id, d) := by
  unfold executionOrder
  cases firstRepeated? (changes.map (·.id)) with
  | some s => simp
  | none =>
    cases danglingDependency? changes with
    | some e => simp [Prod.ext_iff]
    | none => simp [ite_eq_iff, cycleFault]

/-- A circle is reported where both checks pass and there is no order. -/
theorem exists_executionOrder_eq_cycle_iff :
    (∃ ids details, executionOrder changes = .error (.cycle ids details))
      ↔ firstRepeated? (changes.map (·.id)) = none ∧ danglingDependency? changes = none
        ∧ ¬ ∃ order, executionOrder changes = .ok order := by
  unfold executionOrder
  cases firstRepeated? (changes.map (·.id)) with
  | some s => simp
  | none =>
    cases danglingDependency? changes with
    | some e => simp
    | none => simp [ite_eq_iff, cycleFault]

/-- A batch that passes both checks has an order where it has no circle. -/
theorem exists_executionOrder_iff_not_waitsInCircle :
    (∃ order, executionOrder changes = .ok order) ↔ (changes.map (·.id)).Nodup
      ∧ (∀ c ∈ changes, ∀ d ∈ c.dependsOn, d ∈ changes.map (·.id)) ∧ ¬ WaitsInCircle changes := by
  rw [exists_executionOrder_iff, ← exists_rank_iff]
  exact ⟨fun h => ⟨h.nodup_ids, h.mem_ids, h.rank⟩, fun ⟨hnodup, hmem, hrank⟩ =>
    ⟨hnodup, hmem, hrank⟩⟩

end Stages

/-! ## The diagnosis -/

/-- **What the ordering of a batch tells about it.** -/
structure Diagnoses (changes : List Change) (result : Except PlanFault (List String)) : Prop where
  duplicate : (∃ id, result = .error (.duplicateId id)) ↔ ¬ (changes.map (·.id)).Nodup
  repeated : ∀ id, result = .error (.duplicateId id) ↔ FirstRepeated (changes.map (·.id)) id
  unknown : (∃ id d, result = .error (.unknownDependency id d)) ↔ (changes.map (·.id)).Nodup
    ∧ ∃ c ∈ changes, ∃ d ∈ c.dependsOn, d ∉ changes.map (·.id)
  dangling : ∀ id d, result = .error (.unknownDependency id d)
    ↔ (changes.map (·.id)).Nodup ∧ FirstDangling changes id d
  circular : (∃ ids details, result = .error (.cycle ids details)) ↔ (changes.map (·.id)).Nodup
    ∧ (∀ c ∈ changes, ∀ d ∈ c.dependsOn, d ∈ changes.map (·.id)) ∧ WaitsInCircle changes
  ordered : (∃ order, result = .ok order) ↔ (changes.map (·.id)).Nodup
    ∧ (∀ c ∈ changes, ∀ d ∈ c.dependsOn, d ∈ changes.map (·.id)) ∧ ¬ WaitsInCircle changes

/-- **The ordering reports a repeated identifier, an unknown dependency and a circle exactly where
there is one**, in this precedence, and succeeds on every other batch. -/
theorem diagnoses_executionOrder (changes : List Change) :
    Diagnoses changes (executionOrder changes) where
  duplicate := by
    simp only [executionOrder_eq_duplicateId_iff, ← Option.ne_none_iff_exists', ne_eq,
      firstRepeated?_eq_none]
  repeated id := executionOrder_eq_duplicateId_iff.trans firstRepeated?_eq_some
  unknown := by
    have hsome : (∃ id d, danglingDependency? changes = some (id, d))
        ↔ ∃ c ∈ changes, ∃ d ∈ c.dependsOn, d ∉ changes.map (·.id) := by
      rw [← Prod.exists', ← Option.ne_none_iff_exists', ne_eq, danglingDependency?_eq_none]
      push Not
      rfl
    simp only [executionOrder_eq_unknownDependency_iff, firstRepeated?_eq_none, exists_and_left,
      hsome]
  dangling id d := by
    rw [executionOrder_eq_unknownDependency_iff, firstRepeated?_eq_none,
      danglingDependency?_eq_some]
  circular := by
    rw [exists_executionOrder_eq_cycle_iff, exists_executionOrder_iff_not_waitsInCircle,
      firstRepeated?_eq_none, danglingDependency?_eq_none]
    tauto
  ordered := exists_executionOrder_iff_not_waitsInCircle

end Reconcile
