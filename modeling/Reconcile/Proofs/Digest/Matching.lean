import Mathlib.Data.List.Forall2
import Reconcile.Plan.Digest

/-!
# Proofs/Digest/Matching — digests match where they are the same

Two texts are compared without an early end: what sets their bytes apart is gathered in one byte,
pair by pair, and no bit of it is ever taken back (`gathered_eq_zero_iff`).  Pairs end with the
shorter list, so the lengths are compared as well, and a text is known by its bytes
(`bytes_injective`).

Main fact: `digestsMatch_iff` — the comparison is equality, whatever the texts.
-/

namespace Reconcile

/-! ## The bytes of a text -/

theorem toList_loop_bytes (bytes : ByteArray) (i : Nat) (seen : List UInt8) :
    ByteArray.toList.loop bytes i seen = seen.reverse ++ bytes.data.toList.drop i := by
  fun_induction ByteArray.toList.loop bytes i seen with
  | case1 i seen hlt ih =>
    have hget : bytes.get! i = bytes.data.toList[i] := getElem!_pos bytes.data i hlt
    rw [ih, hget, List.reverse_cons, List.append_assoc, List.singleton_append,
      ← List.drop_eq_getElem_cons]
  | case2 i seen hge =>
    rw [List.drop_eq_nil_of_le (Nat.le_of_not_lt hge), List.append_nil]

theorem toList_bytes (bytes : ByteArray) : bytes.toList = bytes.data.toList :=
  toList_loop_bytes bytes 0 []

/-- **A text is known by its bytes.** -/
theorem bytes_injective : Function.Injective fun s : String => s.toUTF8.toList := by
  intro a b h
  have hdata : a.toUTF8.data.toList = b.toUTF8.data.toList := by
    rw [← toList_bytes, ← toList_bytes]
    exact h
  exact String.toByteArray_inj.mp (ByteArray.ext (Array.toList_inj.mp hdata))

/-! ## Gathering what sets bytes apart -/

/-- **Nothing is gathered where all pairs agree**, and what has been gathered stays. -/
theorem gathered_eq_zero_iff (acc : UInt8) (pairs : List (UInt8 × UInt8)) :
    pairs.foldl (fun acc e => acc ||| (e.1 ^^^ e.2)) acc = 0
      ↔ acc = 0 ∧ ∀ e ∈ pairs, e.1 = e.2 := by
  induction pairs generalizing acc with
  | nil => simp
  | cons e rest ih =>
    rw [List.foldl_cons, ih, UInt8.or_eq_zero_iff, UInt8.xor_eq_zero_iff, List.forall_mem_cons,
      and_assoc]

theorem sameBytes_iff (x y : List UInt8) :
    (x.length == y.length && (x.zip y).foldl (fun acc e => acc ||| (e.1 ^^^ e.2)) 0 == 0) = true
      ↔ x = y := by
  have hpairs : (∀ e ∈ x.zip y, e.1 = e.2) ↔ ∀ {a b}, (a, b) ∈ x.zip y → a = b :=
    ⟨fun h _ _ hmem => h _ hmem, fun h _ hmem => h hmem⟩
  rw [Bool.and_eq_true, beq_iff_eq, beq_iff_eq, gathered_eq_zero_iff, eq_self, true_and, hpairs,
    ← List.forall₂_iff_zip, List.forall₂_eq_eq_eq]

/-- **Two digests match exactly where they are the same text.** -/
theorem digestsMatch_iff (a b : String) : digestsMatch a b = true ↔ a = b :=
  (sameBytes_iff a.toUTF8.toList b.toUTF8.toList).trans bytes_injective.eq_iff

/-- The pairs agree as far as they go. -/
example : digestsMatch "naïve" "naïvely" = false := by decide +kernel

end Reconcile
