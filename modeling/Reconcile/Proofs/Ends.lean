import Reconcile.Pass
import Mathlib.Logic.Relation

/-!
# Proofs/Ends — what steps with a state come to

`x.Ends s Q E`: begun in the state `s`, the step ends with a value and a state of which `Q` holds,
or fails with an error and a state of which `E` holds.  `ends_bind` puts steps together, and
`ends_of_run_ok` begins.  `Walks`: a step that is made of moves from state to state, so that what
moves keep is kept (`Walks.ends`).
-/

namespace Reconcile

variable {ε σ α β : Type}

/-- **Begun in a state, a step ends well or fails well.** -/
def Ends (x : ExceptT ε (StateM σ) α) (s : σ) (Q : α → σ → Prop) (E : ε → σ → Prop) : Prop :=
  match x.run.run s with
  | (.ok a, s') => Q a s'
  | (.error e, s') => E e s'

variable {x : ExceptT ε (StateM σ) α} {f : α → ExceptT ε (StateM σ) β} {s s' : σ}
  {Q Q' : α → σ → Prop} {R : β → σ → Prop} {E E' : ε → σ → Prop}

theorem ends_of_run_ok {a : α} (hrun : x.run.run s = (.ok a, s')) : Ends x s Q E ↔ Q a s' := by
  rw [Ends, hrun]

theorem ends_of_run_error {e : ε} (hrun : x.run.run s = (.error e, s')) :
    Ends x s Q E ↔ E e s' := by
  rw [Ends, hrun]

theorem ends_pure {a : α} : Ends (pure a : ExceptT ε (StateM σ) α) s Q E ↔ Q a s :=
  ends_of_run_ok rfl

/-- **Of two steps the second is begun where the first ends.** -/
theorem ends_bind : Ends (x >>= f) s R E ↔ Ends x s (fun a s' => Ends (f a) s' R E) E := by
  have hrun : (x >>= f).run.run s = match x.run.run s with
      | (r, s') => StateT.run (ExceptT.bindCont f r) s' := rfl
  unfold Ends
  rw [hrun]
  rcases x.run.run s with ⟨_ | a, s'⟩ <;> rfl

theorem Ends.imp (h : Ends x s Q E) (hQ : ∀ a s', Q a s' → Q' a s')
    (hE : ∀ e s', E e s' → E' e s') : Ends x s Q' E' := by
  unfold Ends at h ⊢
  rcases hrun : x.run.run s with ⟨e | a, s'⟩ <;> rw [hrun] at h
  · exact hE e s' h
  · exact hQ a s' h

/-- A step that is known to end well, with a value and a state that are known, does so. -/
theorem run_of_ends {a : α} (h : Ends x s (fun b t => b = a ∧ t = s') fun _ _ => False) :
    x.run.run s = (.ok a, s') := by
  unfold Ends at h
  rcases hrun : x.run.run s with ⟨e | b, t⟩ <;> rw [hrun] at h
  · exact absurd h not_false
  · obtain ⟨rfl, rfl⟩ := h
    rfl

-- Looked at closely, a statement about a step runs the step; the rules above are enough.
attribute [irreducible] Ends

/-! ## Steps that are made of moves -/

section Walks

variable {Move : σ → σ → Prop} {Stop : σ → ε → σ → Prop} {P : α → Prop} {P' : β → Prop}

/-- **Begun in a state, a step is made of moves**: it moves on until it has a value of which `P`
holds, or until it has to stop. -/
abbrev WalksFrom (Move : σ → σ → Prop) (Stop : σ → ε → σ → Prop) (x : ExceptT ε (StateM σ) α) (s : σ)
    (P : α → Prop) : Prop :=
  Ends x s (fun a s' => P a ∧ Relation.ReflTransGen Move s s')
    fun e s' => ∃ t, Relation.ReflTransGen Move s t ∧ Stop t e s'

/-- **A step is made of moves**, wherever it is begun. -/
def Walks (Move : σ → σ → Prop) (Stop : σ → ε → σ → Prop) (x : ExceptT ε (StateM σ) α)
    (P : α → Prop) : Prop := ∀ s, WalksFrom Move Stop x s P

theorem walks_pure {a : α} (h : P a) :
    Walks Move Stop (pure a : ExceptT ε (StateM σ) α) P :=
  fun _ => ends_pure.mpr ⟨h, .refl⟩

/-- Moves in front of a step are moves of the whole. -/
theorem Walks.behind {t : σ} (h : Walks Move Stop x P) (hmoves : Relation.ReflTransGen Move s t) :
    Ends x t (fun a s' => P a ∧ Relation.ReflTransGen Move s s')
      fun e s' => ∃ u, Relation.ReflTransGen Move s u ∧ Stop u e s' :=
  (h t).imp (fun _ _ hends => ⟨hends.1, hmoves.trans hends.2⟩)
    fun _ _ ⟨u, hmore, hstop⟩ => ⟨u, hmoves.trans hmore, hstop⟩

theorem Walks.bind (hx : Walks Move Stop x P) (hf : ∀ a, P a → Walks Move Stop (f a) P') :
    Walks Move Stop (x >>= f) P' := by
  intro s
  refine ends_bind.mpr ?_
  exact (hx s).imp (fun a _ hends => (hf a hends.1).behind hends.2) fun _ _ he => he

theorem walks_mapM {f : α → ExceptT ε (StateM σ) β} {l : List α}
    (h : ∀ a ∈ l, Walks Move Stop (f a) P') : Walks Move Stop (l.mapM f) fun _ => True := by
  induction l with
  | nil => exact walks_pure trivial
  | cons a rest ih =>
    rw [List.mapM_cons]
    refine (h a List.mem_cons_self).bind fun b _ => ?_
    exact (ih fun c hc => h c (List.mem_cons_of_mem a hc)).bind fun _ _ => walks_pure trivial

/-- Doing something for every member of a list is made of moves, if it is for each of them. -/
theorem walks_forEach {Move : Draft → Draft → Prop} {Stop : Draft → Failure → Draft → Prop}
    {act : α → Drafting Unit} {l : List α} (h : ∀ a ∈ l, Walks Move Stop (act a) fun _ => True) :
    Walks Move Stop (Drafting.forEach act l) fun _ => True := by
  induction l with
  | nil => exact walks_pure trivial
  | cons a rest ih =>
    exact (h a List.mem_cons_self).bind fun _ _ => ih fun b hb => h b (List.mem_cons_of_mem a hb)

/-- More kinds of moves, and less that is known of the value. -/
theorem Walks.imp {Move' : σ → σ → Prop} {R : α → Prop} (h : Walks Move Stop x P)
    (hmove : ∀ s s', Move s s' → Move' s s') (hvalue : ∀ a, P a → R a) : Walks Move' Stop x R :=
  fun s => (h s).imp (fun _ _ hends => ⟨hvalue _ hends.1, Relation.ReflTransGen.mono hmove _ _ hends.2⟩)
    fun _ _ ⟨t, hmoves, hstop⟩ => ⟨t, Relation.ReflTransGen.mono hmove _ _ hmoves, hstop⟩

/-- What every move keeps is kept on the way. -/
theorem kept_of_moves {I : σ → Prop} (hmove : ∀ s s', I s → Move s s' → I s') (hs : I s)
    (h : Relation.ReflTransGen Move s s') : I s' := by
  induction h with
  | refl => exact hs
  | tail _ hlast ih => exact hmove _ _ ih hlast

/-- **What every move keeps, a step keeps**, and where it stops, it stops on the way. -/
theorem Walks.ends (h : Walks Move Stop x P) {I : σ → Prop}
    (hmove : ∀ s s', I s → Move s s' → I s') (hstop : ∀ s e s', I s → Stop s e s' → E e s')
    (hs : I s) : Ends x s (fun a s' => P a ∧ I s') E :=
  (h s).imp (fun _ _ hends => ⟨hends.1, kept_of_moves hmove hs hends.2⟩)
    fun e s' ⟨t, hmoves, he⟩ => hstop t e s' (kept_of_moves hmove hs hmoves) he

end Walks

end Reconcile
