import Reconcile.Proofs.Pieces
import Reconcile.Value

/-!
# Proofs/FieldPaths — looking up nested values by dotted paths

There are two look-ups.  The one of a value cuts its path at every dot and follows the keys; the one
of the fields of a change cuts at the first dot and leaves what is behind it to the value found.
Dots may stand anywhere: an empty piece is a key like any other.

* `getPath?_eq_some_iff` — what a look-up finds, written out without cutting (`LeadsTo`).
* `lookups_agree` — both look-ups find the same, and to look up a path put together from two is to
  look up one and then the other.
-/

namespace Reconcile

namespace Value

/-- **A path leads down from a value to another one**: it is a key of the value, or goes on behind a
dot from what such a key has. -/
inductive LeadsTo : Value → String → Value → Prop
  | key {entries : List (String × Value)} {key : String} {w : Value} (hplain : '.' ∉ key.toList)
      (hkey : Entries.get? key entries = some w) : LeadsTo (.map entries) key w
  | deeper {entries : List (String × Value)} {key rest : String} {v w : Value}
      (hplain : '.' ∉ key.toList) (hkey : Entries.get? key entries = some v)
      (hrest : LeadsTo v rest w) : LeadsTo (.map entries) (key ++ "." ++ rest) w

variable {v w : Value} {key path : String}

theorem child?_eq_some_iff :
    v.child? key = some w ↔ ∃ entries, v = .map entries ∧ Entries.get? key entries = some w := by
  constructor
  · intro h
    cases v with
    | map entries => exact ⟨entries, rfl, h⟩
    | _ => exact absurd h (Option.some_ne_none w).symm
  · rintro ⟨entries, rfl, h⟩
    exact h

theorem getPath?_of_not_mem (v : Value) (h : '.' ∉ key.toList) : v.getPath? key = v.child? key := by
  rw [getPath?, textPieces_of_not_mem h, follow?, List.foldlM_cons]
  exact bind_pure _

/-- **A path may be followed in two parts**, whatever dots there are in either. -/
theorem getPath?_append (v : Value) (p q : String) :
    v.getPath? (p ++ "." ++ q) = (v.getPath? p).bind fun w => w.getPath? q := by
  have hpieces : textPieces '.' (p ++ "." ++ q) = textPieces '.' p ++ textPieces '.' q :=
    textPieces_append '.' p q
  rw [getPath?, hpieces, follow?, List.foldlM_append]
  rfl

/-- **What a look-up finds.** -/
theorem getPath?_eq_some_iff : v.getPath? path = some w ↔ v.LeadsTo path w := by
  constructor
  · intro h
    induction path using pieceInduction '.' generalizing v with
    | piece key hplain =>
      rw [getPath?_of_not_mem v hplain] at h
      obtain ⟨entries, rfl, hkey⟩ := child?_eq_some_iff.mp h
      exact .key hplain hkey
    | cut key rest hplain ih =>
      obtain ⟨u, hu, hrest⟩ := Option.bind_eq_some_iff.mp ((getPath?_append v key rest).symm.trans h)
      rw [getPath?_of_not_mem v hplain] at hu
      obtain ⟨entries, rfl, hkey⟩ := child?_eq_some_iff.mp hu
      exact .deeper hplain hkey (ih hrest)
  · intro h
    induction h with
    | key hplain hkey => rwa [getPath?_of_not_mem _ hplain]
    | deeper hplain hkey _ ih =>
      rw [getPath?_append, getPath?_of_not_mem _ hplain, child?, hkey, Option.bind_some, ih]

end Value

/-- Behind the first dot both look-ups are the same. -/
theorem FieldMap.getPath?_eq (fields : FieldMap) (path : String) :
    fields.getPath? path = (Value.map fields.entries).getPath? path := by
  by_cases hdot : '.' ∈ path.toList
  · obtain ⟨key, rest, hplain, rfl⟩ := exists_cut_of_mem hdot
    have hvalue : (Value.map fields.entries).getPath? (key ++ "." ++ rest)
        = (fields.get? key).bind fun v => v.getPath? rest := by
      rw [Value.getPath?_append, Value.getPath?_of_not_mem _ hplain]
      rfl
    rw [FieldMap.getPath?, splitTextFirst_append hplain]
    exact hvalue.symm
  · rw [FieldMap.getPath?, splitTextFirst_of_not_mem hdot, Value.getPath?_of_not_mem _ hdot]
    rfl

/-- **The two look-ups agree**, each goes on from the other, and they find where a path leads. -/
theorem lookups_agree :
    (∀ (fields : FieldMap) (path : String),
      fields.getPath? path = (Value.map fields.entries).getPath? path)
    ∧ (∀ (v : Value) (p q : String),
      v.getPath? (p ++ "." ++ q) = (v.getPath? p).bind fun w => w.getPath? q)
    ∧ ∀ (v w : Value) (path : String), v.getPath? path = some w ↔ v.LeadsTo path w :=
  ⟨FieldMap.getPath?_eq, Value.getPath?_append, fun _ _ _ => Value.getPath?_eq_some_iff⟩

/-- Behind a dot at the end there is a key without characters. -/
example : (Value.map [("a", .map [("", .text "found")])]).getPath? "a." = some (.text "found") := rfl

end Reconcile
