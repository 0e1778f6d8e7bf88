import Mathlib.Data.List.Nodup
import Mathlib.Order.Bounds.Basic

/-!
# Proofs/Order/Greedy — orders that always take the first place that can be taken

Places `0, …, n - 1` need each other as a relation says.  A **greedy order** takes them one after
the other, each time the least place that is left and whose needs have all been taken.  There is at
most one such order (`GreedyOrder.unique`), and every place comes behind what it needs
(`GreedyOrder.idxOf_lt`).
-/

namespace Reconcile

/-- A place can be taken: it is left, and everything it needs has been taken. -/
structure Enabled (n : Nat) (needs : Nat → Nat → Prop) (taken : List Nat) (i : Nat) : Prop where
  lt : i < n
  fresh : i ∉ taken
  met : ∀ j, needs i j → j ∈ taken

/-- Each member of a list was the least place that could be taken behind the members before it. -/
def GreedyPrefix (n : Nat) (needs : Nat → Nat → Prop) (l : List Nat) : Prop :=
  ∀ k (h : k < l.length), IsLeast {i | Enabled n needs (l.take k) i} l[k]

/-- A greedy order of all places. -/
structure GreedyOrder (n : Nat) (needs : Nat → Nat → Prop) (l : List Nat) : Prop where
  perm : l.Perm (List.range n)
  least : GreedyPrefix n needs l

variable {n : Nat} {needs : Nat → Nat → Prop} {l m : List Nat}

theorem GreedyPrefix.nil : GreedyPrefix n needs [] := fun _ h => absurd h (Nat.not_lt_zero _)

/-- A greedy list goes on with the least place that can be taken behind it. -/
theorem GreedyPrefix.snoc (h : GreedyPrefix n needs l) {i : Nat}
    (hi : IsLeast {i | Enabled n needs l i} i) : GreedyPrefix n needs (l ++ [i]) := by
  intro k hk
  rcases Nat.lt_or_ge k l.length with hlt | hge
  · rw [List.take_append_of_le_length hlt.le, List.getElem_append_left hlt]
    exact h k hlt
  · have hk' : k = l.length := by
      rw [List.length_append, List.length_singleton] at hk
      omega
    subst hk'
    simpa using hi

/-- Two greedy lists agree as far as both reach. -/
theorem GreedyPrefix.take_eq (hl : GreedyPrefix n needs l) (hm : GreedyPrefix n needs m) :
    ∀ k, k ≤ l.length → k ≤ m.length → l.take k = m.take k := by
  intro k
  induction k with
  | zero => intro _ _; rfl
  | succ k ih =>
    intro hkl hkm
    have htake : l.take k = m.take k := ih (by omega) (by omega)
    have hleast := hm k hkm
    rw [← htake] at hleast
    have hget : l[k] = m[k] := (hl k hkl).unique hleast
    rw [List.take_succ_eq_append_getElem hkl, List.take_succ_eq_append_getElem hkm, htake, hget]

/-- What has been taken comes behind all that it needs. -/
theorem GreedyPrefix.idxOf_lt (h : GreedyPrefix n needs l) (hnodup : l.Nodup) {i j : Nat}
    (hi : i ∈ l) (hij : needs i j) : l.idxOf j < l.idxOf i := by
  have hlt : l.idxOf i < l.length := List.idxOf_lt_length_iff.mpr hi
  have hmem : j ∈ l.take (l.idxOf i) := by
    have henabled : Enabled n needs (l.take (l.idxOf i)) l[l.idxOf i] := (h _ hlt).1
    rw [List.getElem_idxOf hlt] at henabled
    exact henabled.met j hij
  obtain ⟨k, hk, hget⟩ := List.getElem_of_mem hmem
  rw [List.length_take] at hk
  rw [List.getElem_take] at hget
  have hidx : l.idxOf j = k := by
    rw [← hget]
    exact hnodup.idxOf_getElem k (by omega)
  omega

/-- **There is at most one greedy order.** -/
theorem GreedyOrder.unique (hl : GreedyOrder n needs l) (hm : GreedyOrder n needs m) : l = m := by
  have hlen : l.length = m.length := hl.perm.length_eq.trans hm.perm.length_eq.symm
  have htake := hl.least.take_eq hm.least l.length le_rfl hlen.le
  rwa [List.take_length, hlen, List.take_length] at htake

theorem GreedyOrder.nodup (h : GreedyOrder n needs l) : l.Nodup :=
  h.perm.nodup_iff.mpr List.nodup_range

theorem GreedyOrder.mem_iff (h : GreedyOrder n needs l) {i : Nat} : i ∈ l ↔ i < n := by
  rw [h.perm.mem_iff, List.mem_range]

/-- **In a greedy order every place comes behind the places it needs.** -/
theorem GreedyOrder.idxOf_lt (h : GreedyOrder n needs l) {i j : Nat} (hi : i < n)
    (hij : needs i j) : l.idxOf j < l.idxOf i :=
  h.least.idxOf_lt h.nodup (h.mem_iff.mpr hi) hij

/-- **Where places need none but earlier ones, they are in greedy order as they stand.** -/
theorem greedyOrder_range (hneeds : ∀ i j, needs i j → j < i) :
    GreedyOrder n needs (List.range n) where
  perm := .refl _
  least k hk := by
    rw [List.length_range] at hk
    rw [List.take_range, min_eq_left hk.le, List.getElem_range]
    refine ⟨⟨hk, fun hmem => absurd (List.mem_range.mp hmem) (Nat.lt_irrefl k), fun j hj => ?_⟩,
      fun i hi => ?_⟩
    · exact List.mem_range.mpr (hneeds k j hj)
    · exact Nat.le_of_not_lt fun hik => hi.fresh (List.mem_range.mpr hik)

/-- The needs of a greedy order matter only up to equivalence. -/
theorem GreedyOrder.congr {needs' : Nat → Nat → Prop}
    (hneeds : ∀ i j, i < n → (needs i j ↔ needs' i j)) (h : GreedyOrder n needs l) :
    GreedyOrder n needs' l := by
  have hset : ∀ taken, {i | Enabled n needs taken i} = {i | Enabled n needs' taken i} := by
    intro taken
    ext i
    constructor
    · rintro ⟨hlt, hfresh, hmet⟩
      exact ⟨hlt, hfresh, fun j hj => hmet j ((hneeds i j hlt).mpr hj)⟩
    · rintro ⟨hlt, hfresh, hmet⟩
      exact ⟨hlt, hfresh, fun j hj => hmet j ((hneeds i j hlt).mp hj)⟩
  refine ⟨h.perm, fun k hk => ?_⟩
  rw [← hset]
  exact h.least k hk

end Reconcile
