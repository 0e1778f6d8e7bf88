import Reconcile.Text.Pieces

/-!
# Proofs/Pieces — what cutting a text at separators gives

At the first separator: the part in front holds none (`not_mem_of_splitFirst`), and together with
what is behind makes up the text again (`eq_append_of_splitFirst`); the other way round, a text put
together so is cut there (`splitFirst_append`).

At every separator: a text with a separator in it is cut there, and then both parts
(`textPieces_append`); what is true of texts follows piece by piece (`pieceInduction`), or from the
first piece and what is behind it (`exists_cut_of_mem`).
-/

namespace Reconcile

/-! ## Cutting at the first separator -/

theorem splitFirst_append {sep : Char} {a b : List Char} (h : sep ∉ a) :
    splitFirst sep (a ++ sep :: b) = some (a, b) := by
  induction a with
  | nil => simp [splitFirst]
  | cons c rest ih =>
    have hne : c ≠ sep := fun he => h (he ▸ List.mem_cons_self)
    have hrest : sep ∉ rest := fun hm => h (.tail _ hm)
    simp [splitFirst, hne, ih hrest]

/-- The two parts around the first separator make up the list again. -/
theorem eq_append_of_splitFirst {sep : Char} {cs a b : List Char}
    (h : splitFirst sep cs = some (a, b)) : cs = a ++ sep :: b := by
  induction cs generalizing a b with
  | nil => simp [splitFirst] at h
  | cons c rest ih =>
    unfold splitFirst at h
    split at h
    · next hc =>
      obtain ⟨rfl, rfl⟩ := Prod.mk.inj (Option.some.inj h)
      simp [hc]
    · obtain ⟨⟨a', b'⟩, hr, heq⟩ := Option.map_eq_some_iff.mp h
      obtain ⟨rfl, rfl⟩ := Prod.mk.inj heq
      simp [ih hr]

theorem not_mem_of_splitFirst {sep : Char} {cs a b : List Char}
    (h : splitFirst sep cs = some (a, b)) : sep ∉ a := by
  induction cs generalizing a with
  | nil => simp [splitFirst] at h
  | cons c rest ih =>
    unfold splitFirst at h
    split at h
    · obtain ⟨rfl, rfl⟩ := Prod.mk.inj (Option.some.inj h)
      exact List.not_mem_nil
    · next hc =>
      obtain ⟨⟨a', b'⟩, hr, heq⟩ := Option.map_eq_some_iff.mp h
      obtain ⟨rfl, rfl⟩ := Prod.mk.inj heq
      exact List.not_mem_cons_of_ne_of_not_mem (Ne.symm hc) (ih hr)

theorem not_mem_of_splitFirst_eq_none {sep : Char} {cs : List Char}
    (h : splitFirst sep cs = none) : sep ∉ cs := by
  induction cs with
  | nil => exact List.not_mem_nil
  | cons c rest ih =>
    unfold splitFirst at h
    split at h
    · exact absurd h (Option.some_ne_none _)
    · next hc =>
      exact List.not_mem_cons_of_ne_of_not_mem (Ne.symm hc) (ih (Option.map_eq_none_iff.mp h))

theorem dropStart?_append (start cs : List Char) : dropStart? start (start ++ cs) = some cs := by
  rw [dropStart?, if_pos (List.isPrefixOf_iff_prefix.mpr (List.prefix_append start cs)),
    List.drop_left]

/-! ## Texts with separators -/

theorem toList_append_sep (sep : Char) (s t : String) :
    (s ++ String.singleton sep ++ t).toList = s.toList ++ sep :: t.toList := by
  simp

theorem splitTextFirst_append {sep : Char} {s : String} (h : sep ∉ s.toList) (t : String) :
    splitTextFirst sep (s ++ String.singleton sep ++ t) = some (s, t) := by
  rw [splitTextFirst, toList_append_sep, splitFirst_append h, Option.map_some, String.ofList_toList,
    String.ofList_toList]

theorem splitTextFirst_of_not_mem {sep : Char} {s : String} (h : sep ∉ s.toList) :
    splitTextFirst sep s = none := by
  rw [splitTextFirst, Option.map_eq_none_iff, Option.eq_none_iff_forall_ne_some]
  rintro ⟨a, b⟩ hsplit
  exact h (eq_append_of_splitFirst hsplit ▸ List.mem_append_right a List.mem_cons_self)

/-- A text with a separator in it is a piece, the first separator, and what is behind that. -/
theorem exists_cut_of_mem {sep : Char} {s : String} (h : sep ∈ s.toList) :
    ∃ front rest, sep ∉ front.toList ∧ s = front ++ String.singleton sep ++ rest := by
  obtain ⟨a, b, hchars, hfront⟩ := List.eq_append_cons_of_mem h
  refine ⟨String.ofList a, String.ofList b, by rwa [String.toList_ofList], ?_⟩
  rw [← String.toList_inj, toList_append_sep, String.toList_ofList, String.toList_ofList, hchars]

/-- **A text is one piece, or a piece in front of a separator and a text behind it.** -/
theorem pieceInduction (sep : Char) {motive : String → Prop}
    (piece : ∀ s, sep ∉ s.toList → motive s)
    (cut : ∀ s t, sep ∉ s.toList → motive t → motive (s ++ String.singleton sep ++ t))
    (s : String) : motive s := by
  by_cases hsep : sep ∈ s.toList
  · obtain ⟨front, rest, hfront, hs⟩ := exists_cut_of_mem hsep
    rw [hs]
    exact cut front rest hfront (pieceInduction sep piece cut rest)
  · exact piece s hsep
termination_by s.toList.length
decreasing_by
  rw [hs, toList_append_sep, List.length_append, List.length_cons]
  omega

/-! ## Cutting at every separator -/

/-- A separator ends a piece, wherever it stands. -/
theorem pieces_append (sep : Char) (a b : List Char) :
    pieces sep (a ++ sep :: b) = pieces sep a ++ pieces sep b := by
  induction a with
  | nil => simp [pieces]
  | cons c rest ih =>
    obtain ⟨w, ws, hpieces⟩ := List.exists_cons_of_ne_nil (pieces_ne_nil sep rest)
    simp only [List.cons_append, pieces, ih, hpieces]
    split <;> rfl

theorem pieces_of_not_mem {sep : Char} {cs : List Char} (h : sep ∉ cs) : pieces sep cs = [cs] := by
  induction cs with
  | nil => rfl
  | cons c rest ih =>
    rw [pieces, if_neg (Ne.symm (List.ne_of_not_mem_cons h)), ih (List.not_mem_of_not_mem_cons h)]

/-- **A text is cut at a separator in it, and then both parts.** -/
theorem textPieces_append (sep : Char) (s t : String) :
    textPieces sep (s ++ String.singleton sep ++ t) = textPieces sep s ++ textPieces sep t := by
  rw [textPieces, toList_append_sep, pieces_append, List.map_append]
  rfl

theorem textPieces_of_not_mem {sep : Char} {s : String} (h : sep ∉ s.toList) :
    textPieces sep s = [s] := by
  rw [textPieces, pieces_of_not_mem h, List.map_singleton, String.ofList_toList]

end Reconcile
