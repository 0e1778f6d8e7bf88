import Reconcile.Dict

/-!
# StringSet — sets of texts as ascending lists

`sortedSet` lists the members of a list in strictly ascending order, each once; `mem_sortedSet` and
`ascending_sortedSet` determine it.  `StringSet` bundles such a list with the proof of its order.
-/

namespace Reconcile

/-- Puts a text at its place in an ascending list, unless it is there. -/
def setInsert (s : String) : List String → List String
  | [] => [s]
  | t :: rest =>
    if s < t then s :: t :: rest
    else if t < s then t :: setInsert s rest
    else t :: rest

/-- The members of a list, ascending and without repetition. -/
def sortedSet (l : List String) : List String := l.foldr setInsert []

@[simp] theorem mem_setInsert {s t : String} {l : List String} :
    t ∈ setInsert s l ↔ t = s ∨ t ∈ l := by
  induction l with
  | nil => simp [setInsert]
  | cons u rest ih =>
    unfold setInsert
    split
    · simp
    · split
      · simp only [List.mem_cons, ih]; grind
      · next h1 h2 =>
        have : s = u := eq_of_not_lt_of_not_lt h1 h2
        simp [this]

@[simp] theorem mem_sortedSet {t : String} {l : List String} : t ∈ sortedSet l ↔ t ∈ l := by
  induction l with
  | nil => simp [sortedSet]
  | cons s rest ih =>
    change t ∈ setInsert s (sortedSet rest) ↔ _
    simp [ih]

theorem ascending_setInsert {s : String} {l : List String} (h : l.Pairwise (· < ·)) :
    (setInsert s l).Pairwise (· < ·) := by
  induction l with
  | nil => simp [setInsert]
  | cons u rest ih =>
    have hu := List.pairwise_cons.1 h
    unfold setInsert
    split
    · next hlt =>
      refine List.pairwise_cons.2 ⟨fun t ht => ?_, h⟩
      rcases List.mem_cons.1 ht with rfl | ht
      · exact hlt
      · exact String.lt_trans hlt (hu.1 t ht)
    · split
      · next hlt =>
        refine List.pairwise_cons.2 ⟨fun t ht => ?_, ih hu.2⟩
        rcases mem_setInsert.1 ht with rfl | ht
        · exact hlt
        · exact hu.1 t ht
      · exact h

theorem ascending_sortedSet (l : List String) : (sortedSet l).Pairwise (· < ·) := by
  induction l with
  | nil => exact List.Pairwise.nil
  | cons s rest ih => exact ascending_setInsert ih

/-- A set of texts: its members, ascending. -/
structure StringSet where
  members : List String
  ascending : members.Pairwise (· < ·)

namespace StringSet

theorem ext_members {s t : StringSet} (h : s.members = t.members) : s = t := by
  cases s; cases t; cases h; rfl

instance : DecidableEq StringSet := fun s t =>
  if h : s.members = t.members then isTrue (ext_members h)
  else isFalse fun hst => h (hst ▸ rfl)

/-- The set of the members of a list. -/
def ofList (l : List String) : StringSet := ⟨sortedSet l, ascending_sortedSet l⟩

/-- A text is a member. -/
def contains (s : StringSet) (t : String) : Bool := s.members.contains t

end StringSet

end Reconcile
