import Reconcile.Plan.Order
import Reconcile.Json.Printer

/-!
# Proofs/PlainText — which values read as the mark of the unknown

References of a plan are compared with the text `[unknown]`, and the values that references read are
written out as texts.  Main fact: `Value.eq_text_of_plainText` — the only value that reads so is the
text itself.  A list opens a bracket as well, but none of the items of a list starts with a letter
`u`.
-/

namespace Reconcile

/-- A list of characters starts with one that is neither a bracket nor the letter `u`. -/
def StartsPlainly (cs : List Char) : Prop := ∃ c rest, cs = c :: rest ∧ c ≠ 'u' ∧ c ≠ '['

theorem StartsPlainly.append {a : List Char} (h : StartsPlainly a) (b : List Char) :
    StartsPlainly (a ++ b) := by
  obtain ⟨c, rest, rfl, hu, hbracket⟩ := h
  exact ⟨c, rest ++ b, rfl, hu, hbracket⟩

/-! ## Numbers -/

theorem startsPlainly_of_digits {cs : List Char} (hne : cs ≠ []) (h : ∀ c ∈ cs, c.isDigit = true) :
    StartsPlainly cs := by
  obtain ⟨c, rest, rfl⟩ := List.exists_cons_of_ne_nil hne
  have hc := h c List.mem_cons_self
  refine ⟨c, rest, rfl, ?_, ?_⟩ <;> rintro rfl <;> exact absurd hc (by decide)

theorem startsPlainly_nat (n : Nat) : StartsPlainly (toString n).toList := by
  rw [Nat.toString_eq_ofList_toDigits, String.toList_ofList]
  refine startsPlainly_of_digits Nat.toDigits_ne_nil fun c hc => ?_
  exact Nat.isDigit_of_mem_toDigits (by decide) (by decide) hc

theorem startsPlainly_int (n : Int) : StartsPlainly (toString n).toList := by
  rw [Int.toString_eq_repr, Int.repr_eq_if]
  split
  · exact startsPlainly_nat _
  · rw [String.toList_append]
    exact ⟨'-', _, rfl, by decide, by decide⟩

/-- A point among digits is either behind one of them or comes first. -/
theorem startsPlainly_pointed {digits : List Char} (h : StartsPlainly digits) (n : Nat) :
    StartsPlainly (String.ofList (digits.take n) ++ "." ++ String.ofList (digits.drop n)).toList := by
  obtain ⟨c, rest, rfl, hu, hbracket⟩ := h
  simp only [String.toList_append, String.toList_ofList]
  rcases n with _ | n
  · exact ⟨'.', _, rfl, by decide, by decide⟩
  · exact ⟨c, _, rfl, hu, hbracket⟩

theorem startsPlainly_render (layout : DecimalLayout) (dec : Decimal) :
    StartsPlainly (layout.render dec).toList := by
  have hdigits := startsPlainly_nat dec.digits
  unfold DecimalLayout.render
  dsimp only
  split
  · split
    · simp only [String.toList_append]
      exact ⟨'0', _, rfl, by decide, by decide⟩
    · split
      · simp only [String.toList_append, String.toList_ofList]
        exact (hdigits.append _).append _
      · exact startsPlainly_pointed hdigits _
  · rw [String.toList_append, String.toList_append]
    refine StartsPlainly.append (StartsPlainly.append ?_ _) _
    split
    · rwa [String.toList_ofList]
    · exact startsPlainly_pointed hdigits _

theorem startsPlainly_number (n : Number) : StartsPlainly n.text.toList := by
  rcases n with m | x
  · exact startsPlainly_int m
  · rw [Number.text, Number.doubleText, String.toList_append]
    split
    · exact ⟨'-', _, rfl, by decide, by decide⟩
    · split
      · exact ⟨'0', _, rfl, by decide, by decide⟩
      · exact startsPlainly_render _ _

/-! ## Values -/

/-- The text of a tree does not start with the letter `u`. -/
theorem head_compact (j : Json) : ∃ c rest, j.compact.toList = c :: rest ∧ c ≠ 'u' := by
  rcases j with _ | b | n | s | items | members
  · exact ⟨'n', _, rfl, by decide⟩
  · rcases b with _ | _
    · exact ⟨'f', _, rfl, by decide⟩
    · exact ⟨'t', _, rfl, by decide⟩
  · obtain ⟨c, rest, heq, hu, -⟩ := startsPlainly_number n
    exact ⟨c, rest, heq, hu⟩
  · simp only [Json.compact, Json.stringText, String.toList_append]
    exact ⟨'"', _, rfl, by decide⟩
  · simp only [Json.compact, String.toList_append]
    exact ⟨'[', _, rfl, by decide⟩
  · simp only [Json.compact, String.toList_append]
    exact ⟨'\x7b', _, rfl, by decide⟩

/-- Behind the bracket of a list comes an item or the other bracket. -/
theorem compact_array_ne_unknownId (items : List Json) : (Json.array items).compact ≠ unknownId := by
  intro h
  have hchars := congrArg String.toList h
  rw [Json.compact, String.toList_append, String.toList_append] at hchars
  have htail : (String.intercalate "," (Json.compactItems items)).toList ++ "]".toList
      = "unknown]".toList := (List.cons.inj hchars).2
  rcases items with _ | ⟨item, rest⟩
  · exact absurd htail (by decide)
  · obtain ⟨c, cs, hitem, hu⟩ := head_compact item
    rw [Json.compactItems, ← String.append_empty (s := item.compact),
      String.intercalate_cons_append, String.toList_append, hitem] at htail
    exact hu (List.cons.inj htail).1

/-- **Only the text `[unknown]` reads as the mark of the unknown.** -/
theorem Value.eq_text_of_plainText {v : Value} (h : v.plainText = unknownId) :
    v = .text unknownId := by
  rcases v with _ | b | n | s | items | entries | r
  · exact absurd h (by decide)
  · rcases b with _ | _ <;> exact absurd h (by decide)
  · obtain ⟨c, cs, hchars, -, hbracket⟩ := startsPlainly_number n
    rw [Value.plainText] at h
    rw [h] at hchars
    exact absurd (List.cons.inj hchars).1.symm hbracket
  · exact congrArg Value.text h
  · exact absurd h (compact_array_ne_unknownId _)
  · have hchars := congrArg String.toList h
    simp only [Value.plainText, Value.toJson, Json.compact, String.toList_append] at hchars
    exact absurd (List.cons.inj hchars).1 (by decide)
  · have hchars := congrArg String.toList h
    simp only [Value.plainText, Reference.text, String.toList_append] at hchars
    exact absurd (List.cons.inj hchars).1 (by decide)

end Reconcile
