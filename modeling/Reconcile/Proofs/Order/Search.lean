import Mathlib.Data.List.Chain
import Reconcile.Proofs.Order.Agenda

/-!
# Proofs/Order/Search — the search for a circle

The search walks along what places need and marks where it has been: places on its path, and places
that are done.  Among places that each need another one of them, none can be done before a circle is
met: the last one entered would have to be done before the one it needs.

* `Underway`, `underway_visit` — the invariant of the search, also that no stuck place gets done.
* `circle_of_visit` — what stops the search is a circle.
* `visit_add` — no path is longer than the number of places still unvisited, so that a search which
  may go deeper finds nothing else.
* `exists_circleWithin?_eq` — started at places that each need another one of them, it finds a
  circle.
-/

namespace Reconcile

/-! ## Folds that may stop -/

section Folds

variable {ε σ α : Type} {f g : σ → α → Except ε σ} {P : σ → Prop} {l : List α} {s : σ}

/-- **A fold that may stop** goes through all members or stops at one of them; what every member
keeps holds wherever a member is met. -/
theorem foldlM_cases (hkeeps : ∀ a ∈ l, ∀ t t', P t → f t a = .ok t' → P t') (hs : P s) :
    (∃ s', l.foldlM f s = .ok s' ∧ P s' ∧ ∀ a ∈ l, ∃ t t', P t ∧ f t a = .ok t')
      ∨ ∃ e, l.foldlM f s = .error e ∧ ∃ a ∈ l, ∃ t, P t ∧ f t a = .error e := by
  induction l generalizing s with
  | nil => exact .inl ⟨s, rfl, hs, by simp⟩
  | cons a rest ih =>
    rw [List.foldlM_cons]
    cases hstep : f s a with
    | error e => exact .inr ⟨e, rfl, a, List.mem_cons_self, s, hs, hstep⟩
    | ok t =>
      have ht : P t := hkeeps a List.mem_cons_self s t hs hstep
      rcases ih (fun b hb => hkeeps b (.tail _ hb)) ht with
        ⟨s', hrest, hs', hall⟩ | ⟨e, hrest, b, hb, hstop⟩
      · refine .inl ⟨s', hrest, hs', fun b hb => ?_⟩
        rcases List.mem_cons.mp hb with rfl | hb
        · exact ⟨s, t, hs, hstep⟩
        · exact hall b hb
      · exact .inr ⟨e, hrest, b, .tail _ hb, hstop⟩

/-- Folds whose steps are the same wherever a member is met are the same. -/
theorem foldlM_congr (hkeeps : ∀ a ∈ l, ∀ t t', P t → f t a = .ok t' → P t')
    (hsame : ∀ a ∈ l, ∀ t, P t → g t a = f t a) (hs : P s) : l.foldlM g s = l.foldlM f s := by
  induction l generalizing s with
  | nil => rfl
  | cons a rest ih =>
    rw [List.foldlM_cons, List.foldlM_cons, hsame a List.mem_cons_self s hs]
    cases hstep : f s a with
    | error e => rfl
    | ok t =>
      exact ih (fun b hb => hkeeps b (.tail _ hb)) (fun b hb => hsame b (.tail _ hb))
        (hkeeps a List.mem_cons_self s t hs hstep)

end Folds

/-! ## Circles -/

/-- A path with its first place again at the end. -/
def closed (path : List Nat) : List Nat := path ++ path.take 1

/-- **A circle of places**: at least two, all distinct, each of which needs the next one, and the
last one the first. -/
structure Circle (needs : Nat → Nat → Prop) (path : List Nat) : Prop where
  two_le : 2 ≤ path.length
  nodup : path.Nodup
  chain : (closed path).IsChain needs

/-- Where the last place of a path needs another one of it, the rest of the path from there on is a
circle. -/
theorem circle_of_mem {needs : Nat → Nat → Prop} {path : List Nat} {i j : Nat}
    (hnodup : (path ++ [i]).Nodup) (hchain : (path ++ [i]).IsChain needs) (hij : needs i j)
    (hj : j ∈ path) : ∃ circle, Circle needs circle
      ∧ (path ++ [i]).dropWhile (· != j) ++ [j] = closed circle := by
  obtain ⟨front, rest, rfl, hfront⟩ := List.eq_append_cons_of_mem hj
  rw [List.append_assoc, List.cons_append] at hnodup hchain ⊢
  have hdrop : (front ++ j :: (rest ++ [i])).dropWhile (· != j) = j :: (rest ++ [i]) := by
    rw [List.dropWhile_append_of_pos fun k hk => by simpa using fun heq : k = j => hfront (heq ▸ hk)]
    simp
  refine ⟨j :: (rest ++ [i]), ⟨by simp, (List.nodup_append.mp hnodup).2.1, ?_⟩, by rw [hdrop]; rfl⟩
  refine (List.isChain_append.mp hchain).2.1.append (.singleton j) fun k hk l hl => ?_
  rw [← List.cons_append, List.getLast?_concat] at hk
  obtain rfl : i = k := Option.some.inj hk
  obtain rfl : j = l := Option.some.inj hl
  exact hij

/-! ## Marks -/

theorem markAt_set {marks : List Mark} {i : Nat} (hi : i < marks.length) (m : Mark) (j : Nat) :
    markAt (marks.set i m) j = if j = i then m else markAt marks j := by
  by_cases hij : j = i
  · subst hij
    simp [markAt, hi]
  · rw [if_neg hij, markAt, List.getD_eq_getElem?_getD, List.getElem?_set_ne (Ne.symm hij)]
    rfl

/-- A place that is not done is a place of the list. -/
theorem lt_length_of_markAt {marks : List Mark} {i : Nat} (hi : markAt marks i ≠ .done) :
    i < marks.length := by
  by_contra hge
  exact hi (by simp [markAt, List.getElem?_eq_none (Nat.le_of_not_lt hge)])

/-- Entering a place leaves one unvisited place less. -/
theorem count_set_onPath {marks : List Mark} {i : Nat} (hi : markAt marks i = .unvisited) :
    (marks.set i .onPath).count .unvisited + 1 = marks.count .unvisited := by
  have hlt : i < marks.length := lt_length_of_markAt (by simp [hi])
  have hget : marks[i] = .unvisited := by simpa [markAt, hlt] using hi
  have hpos : 0 < marks.count .unvisited := List.count_pos_iff.mpr (hget ▸ List.getElem_mem hlt)
  have hother : (Mark.onPath == Mark.unvisited) = false := rfl
  rw [List.count_set hlt, hget, hother]
  simp only [beq_self_eq_true, if_true, Bool.false_eq_true, if_false]
  omega

theorem count_set_done_le (marks : List Mark) (i : Nat) :
    (marks.set i .done).count .unvisited ≤ marks.count .unvisited := by
  by_cases hlt : i < marks.length
  · have hother : (Mark.done == Mark.unvisited) = false := rfl
    rw [List.count_set hlt, hother, if_neg Bool.false_ne_true]
    omega
  · rw [List.set_eq_of_length_le (Nat.le_of_not_lt hlt)]

/-! ## The invariant -/

/-- **A search underway**, with room for some more places: the marks tell which places are on the
path, and no stuck place is done. -/
structure Underway (stuck : Nat → Prop) (room : Nat) (path : List Nat) (marks : List Mark) :
    Prop where
  fits : marks.count .unvisited ≤ room
  onPath : ∀ j, markAt marks j = .onPath ↔ j ∈ path
  undone : ∀ j, stuck j → markAt marks j ≠ .done

namespace Underway

variable {stuck : Nat → Prop} {room : Nat} {path : List Nat} {marks : List Mark} {i : Nat}

/-- A search that has entered nothing yet. -/
theorem start {n : Nat} (hstuck : ∀ i, stuck i → i < n) :
    Underway stuck n [] (List.replicate n .unvisited) where
  fits := by simp
  onPath j := by by_cases hj : j < n <;> simp [markAt, hj]
  undone j hj := by simp [markAt, hstuck j hj]

/-- There is room for a place that is unvisited. -/
theorem exists_room (h : Underway stuck room path marks) (hi : markAt marks i = .unvisited) :
    ∃ less, room = less + 1 :=
  Nat.exists_eq_add_one.mpr (by have := count_set_onPath hi; have := h.fits; omega)

/-- **Entering a place** puts it on the path. -/
theorem enter (h : Underway stuck (room + 1) path marks) (hi : markAt marks i = .unvisited) :
    Underway stuck room (path ++ [i]) (marks.set i .onPath) := by
  have hlt : i < marks.length := lt_length_of_markAt (by simp [hi])
  refine ⟨?_, fun j => ?_, fun j hj => ?_⟩
  · have := count_set_onPath hi
    have := h.fits
    omega
  · rw [markAt_set hlt, List.mem_append, List.mem_singleton]
    by_cases hji : j = i
    · simp [hji]
    · simp [hji, h.onPath]
  · rw [markAt_set hlt]
    split
    · exact nofun
    · exact h.undone j hj

/-- **Leaving a place** takes it off the path. -/
theorem leave (h : Underway stuck room (path ++ [i]) marks) (hpath : i ∉ path) (hi : ¬ stuck i) :
    Underway stuck (room + 1) path (marks.set i .done) := by
  have hmark : markAt marks i = .onPath := (h.onPath i).mpr (by simp)
  have hlt : i < marks.length := lt_length_of_markAt (by simp [hmark])
  refine ⟨?_, fun j => ?_, fun j hj => ?_⟩
  · exact (count_set_done_le marks i).trans (h.fits.trans (Nat.le_succ room))
  · rw [markAt_set hlt]
    by_cases hji : j = i
    · simp [hji, hpath]
    · simp [hji, h.onPath]
  · rw [markAt_set hlt, if_neg fun hji : j = i => hi (hji ▸ hj)]
    exact h.undone j hj

end Underway

/-! ## What the search does -/

section Visit

variable {table : List (List Nat)} {stuck : Nat → Prop} {room : Nat} {path : List Nat}
  {marks marks' : List Mark} {i j : Nat}

theorem visit_succ : visit table (room + 1) path marks i
    = ((Agenda.row table i).foldlM
        (follow (visit table room (path ++ [i])) (path ++ [i])) (marks.set i .onPath)).map
      fun marks => marks.set i .done := by
  rw [visit, Agenda.row]
  cases (table.getD i []).foldlM
    (follow (visit table room (path ++ [i])) (path ++ [i])) (marks.set i .onPath) <;> rfl

/-- Going on to a place keeps the invariant where entering a new one does, and then no stuck place
has been met. -/
theorem Underway.follow {enter : List Mark → Nat → Search} (h : Underway stuck room path marks)
    (henter : markAt marks j = .unvisited → enter marks j = .ok marks' →
      Underway stuck room path marks' ∧ ¬ stuck j)
    (hstep : Reconcile.follow enter path marks j = .ok marks') :
    Underway stuck room path marks' ∧ ¬ stuck j := by
  unfold Reconcile.follow at hstep
  cases hmark : markAt marks j with
  | unvisited => exact henter hmark (by simpa [hmark] using hstep)
  | onPath => simp [hmark] at hstep
  | done =>
    obtain rfl : marks = marks' := by simpa [hmark] using hstep
    exact ⟨h, fun hj => h.undone j hj hmark⟩

/-- **The search keeps its invariant**, and gets no stuck place done. -/
theorem underway_visit (hstuck : ∀ i, stuck i → ∃ j ∈ Agenda.row table i, stuck j)
    (h : Underway stuck room path marks) (hi : markAt marks i = .unvisited)
    (hvisit : visit table room path marks i = .ok marks') :
    Underway stuck room path marks' ∧ ¬ stuck i := by
  induction room generalizing path marks marks' i with
  | zero => exact absurd (h.exists_room hi) (by simp)
  | succ room ih =>
    have hfollow : ∀ j t t', Underway stuck room (path ++ [i]) t →
        follow (visit table room (path ++ [i])) (path ++ [i]) t j = .ok t' →
        Underway stuck room (path ++ [i]) t' ∧ ¬ stuck j :=
      fun j t t' ht hstep => ht.follow (fun hj => ih ht hj) hstep
    rcases foldlM_cases (fun j _ t t' ht hstep => (hfollow j t t' ht hstep).1) (h.enter hi) with
      ⟨m, hfold, hm, hall⟩ | ⟨e, hfold, -⟩
    · rw [visit_succ, hfold] at hvisit
      obtain rfl := Except.ok.inj hvisit
      have hpath : i ∉ path := fun hmem => by simp [(h.onPath i).mpr hmem] at hi
      have hfree : ¬ stuck i := by
        -- a stuck place needs a stuck one, and that one has been met
        intro hs
        obtain ⟨j, hj, hsj⟩ := hstuck i hs
        obtain ⟨t, t', ht, hstep⟩ := hall j hj
        exact (hfollow j t t' ht hstep).2 hsj
      exact ⟨hm.leave hpath hfree, hfree⟩
    · rw [visit_succ, hfold] at hvisit
      exact absurd hvisit nofun

/-- **What stops the search is a circle.** -/
theorem circle_of_visit (ht : Agenda.IsTable table)
    (hstuck : ∀ i, stuck i → ∃ j ∈ Agenda.row table i, stuck j)
    (h : Underway stuck room path marks) (hi : markAt marks i = .unvisited)
    (hnodup : (path ++ [i]).Nodup) (hchain : (path ++ [i]).IsChain (Agenda.Needs table))
    {found : List Nat} (hvisit : visit table room path marks i = .error found) :
    ∃ circle, Circle (Agenda.Needs table) circle ∧ found = closed circle := by
  induction room generalizing path marks i with
  | zero => exact absurd (h.exists_room hi) (by simp)
  | succ room ih =>
    rcases foldlM_cases (fun j _ t t' ht' hstep =>
        (ht'.follow (fun hj => underway_visit hstuck ht' hj) hstep).1) (h.enter hi) with
      ⟨m, hfold, -⟩ | ⟨e, hfold, j, hj, t, ht', hstop⟩
    · rw [visit_succ, hfold] at hvisit
      exact absurd hvisit nofun
    · rw [visit_succ, hfold] at hvisit
      obtain rfl := Except.error.inj hvisit
      have hne : j ≠ i := fun heq => ht.irrefl i (heq ▸ hj)
      unfold follow at hstop
      cases hmark : markAt t j with
      | unvisited =>
        have hfresh : j ∉ path ++ [i] := fun hmem => by simp [(ht'.onPath j).mpr hmem] at hmark
        refine ih ht' hmark ?_ ?_ (by simpa [hmark] using hstop)
        · exact List.nodup_append.mpr ⟨hnodup, List.nodup_singleton j, by
            simpa using fun k hk (heq : k = j) => hfresh (heq ▸ hk)⟩
        · refine hchain.append (.singleton j) fun k hk l hl => ?_
          rw [List.getLast?_concat] at hk
          obtain rfl : i = k := Option.some.inj hk
          obtain rfl : j = l := Option.some.inj hl
          exact hj
      | onPath =>
        obtain rfl : _ = e := by simpa [hmark] using hstop
        have hmem : j ∈ path ++ [i] := (ht'.onPath j).mp hmark
        have hpath : j ∈ path := by simpa [hne] using hmem
        exact circle_of_mem hnodup hchain hj hpath
      | done => simp [hmark] at hstop

/-- **A search that may go deeper finds nothing else.** -/
theorem visit_add (hstuck : ∀ i, stuck i → ∃ j ∈ Agenda.row table i, stuck j)
    (h : Underway stuck room path marks) (hi : markAt marks i = .unvisited) (more : Nat) :
    visit table (room + more) path marks i = visit table room path marks i := by
  induction room generalizing path marks i with
  | zero => exact absurd (h.exists_room hi) (by simp)
  | succ room ih =>
    rw [Nat.add_right_comm, visit_succ, visit_succ]
    refine congrArg _ (foldlM_congr (P := Underway stuck room (path ++ [i])) ?_ ?_ (h.enter hi))
    · exact fun j _ t t' ht hstep =>
        (ht.follow (fun hj => underway_visit hstuck ht hj) hstep).1
    · intro j _ t ht
      unfold follow
      cases hmark : markAt t j with
      | unvisited => exact ih ht hmark
      | onPath => rfl
      | done => rfl

end Visit

/-! ## The search from some places -/

/-- **Started at places that each need another one of them, the search finds a circle**, the same
however deep it may go. -/
theorem exists_circleWithin?_eq {table : List (List Nat)} (ht : Agenda.IsTable table)
    {starts : List Nat} (hne : starts ≠ []) (hlt : ∀ i ∈ starts, i < table.length)
    (hneeds : ∀ i ∈ starts, ∃ j ∈ Agenda.row table i, j ∈ starts) :
    ∃ circle, Circle (Agenda.Needs table) circle ∧ ∀ depth, table.length ≤ depth →
      circleWithin? table depth starts = some (closed circle) := by
  obtain ⟨i, rest, rfl⟩ := List.exists_cons_of_ne_nil hne
  have hstart : Underway (· ∈ i :: rest) table.length []
      (List.replicate table.length .unvisited) := .start hlt
  have hi : markAt (List.replicate table.length .unvisited) i = .unvisited := by
    simp [markAt, hlt i List.mem_cons_self]
  cases hvisit : visit table table.length [] (List.replicate table.length .unvisited) i with
  | ok marks => exact absurd List.mem_cons_self (underway_visit hneeds hstart hi hvisit).2
  | error found =>
    obtain ⟨circle, hcircle, rfl⟩ := circle_of_visit ht hneeds hstart hi (by simp) (by simp) hvisit
    refine ⟨circle, hcircle, fun depth hdepth => ?_⟩
    obtain ⟨more, rfl⟩ := Nat.exists_eq_add_of_le hdepth
    have hdeeper := (visit_add hneeds hstart hi more).trans hvisit
    simp only [circleWithin?, List.foldlM_cons, hi, if_true, hdeeper, bind, Except.bind]

end Reconcile
