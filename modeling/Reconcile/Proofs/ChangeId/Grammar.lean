import Mathlib.Data.List.Induction
import Reconcile.Proofs.ChangeId

/-!
# Proofs/ChangeId/Grammar — the texts that are identifiers

`ChangeId.Spells` is the grammar of identifiers: a position, the letter of an action, a kind and a
reference between colons.  Main fact: `ChangeId.parse?_eq_some_iff_spells` — reading accepts exactly
the texts of the grammar and finds the parts that they spell; writing what was found puts the
decimal of the position in place of the position and leaves the rest as it is.

A position may have a plus and zeros in front, so it has many spellings; its decimal
(`ChangeId.IsDecimal`) is the one without (`ChangeId.isDecimal_iff`).
-/

namespace Reconcile

namespace ChangeId

/-! ## Digits -/

/-- Digits write a number. -/
structure Writes (digits : List Char) (n : Nat) : Prop where
  ne_nil : digits ≠ []
  isDigit : ∀ d ∈ digits, d.isDigit = true
  value : Nat.ofDigitChars 10 digits 0 = n

theorem Writes.plus_notMem {digits : List Char} {n : Nat} (h : Writes digits n) : '+' ∉ digits :=
  fun hmem => absurd (h.isDigit _ hmem) (by decide)

theorem Writes.colon_notMem {digits : List Char} {n : Nat} (h : Writes digits n) : ':' ∉ digits :=
  fun hmem => absurd (h.isDigit _ hmem) (by decide)

theorem writes_toDigits (n : Nat) : Writes (Nat.toDigits 10 n) n where
  ne_nil := Nat.toDigits_ne_nil
  isDigit _ hd := Nat.isDigit_of_mem_toDigits (by decide) (by decide) hd
  value := Nat.ofDigitChars_ten_toDigits

/-- **A text is the decimal of a number**: its digits, without a superfluous zero in front. -/
structure IsDecimal (p : String) (n : Nat) : Prop where
  writes : Writes p.toList n
  lead : p.toList.head? = some '0' → p = "0"

/-- The digit of a number below ten is the character that it was read from. -/
theorem digitChar_of_isDigit {d : Char} (h : d.isDigit = true) :
    d.toNat - '0'.toNat < 10 ∧ (d.toNat - '0'.toNat).digitChar = d := by
  obtain ⟨hlow, hhigh⟩ := Char.isDigit_iff_toNat.mp h
  have hzero : '0'.toNat = 48 := rfl
  have hnine : '9'.toNat = 57 := rfl
  rw [hzero] at hlow ⊢
  rw [hnine] at hhigh
  have hlt : d.toNat - 48 < 10 := by omega
  refine ⟨hlt, Char.toNat_inj.mp ?_⟩
  rw [Nat.toNat_digitChar_of_lt_ten hlt]
  omega

/-- Digits with another one than zero in front are those of the number that they write.  The
induction takes the last digit away. -/
theorem toDigits_ofDigitChars {digits : List Char} (hdigit : ∀ d ∈ digits, d.isDigit = true)
    (hne : digits ≠ []) (hlead : digits.head? ≠ some '0') :
    0 < Nat.ofDigitChars 10 digits 0
      ∧ Nat.toDigits 10 (Nat.ofDigitChars 10 digits 0) = digits := by
  induction digits using List.reverseRecOn with
  | nil => exact absurd rfl hne
  | append_singleton front d ih =>
    obtain ⟨hlt, hchar⟩ := digitChar_of_isDigit (hdigit d (by simp))
    rw [Nat.ofDigitChars_append, Nat.ofDigitChars_cons, Nat.ofDigitChars_nil]
    rcases front with _ | ⟨c, rest⟩
    · have hd : d ≠ '0' := by simpa using hlead
      have hpos : d.toNat - '0'.toNat ≠ 0 := fun hzero => hd (by rw [← hchar, hzero]; rfl)
      rw [Nat.ofDigitChars_nil, Nat.mul_zero, Nat.zero_add, Nat.toDigits_of_lt_base hlt, hchar]
      exact ⟨Nat.pos_of_ne_zero hpos, rfl⟩
    · obtain ⟨hpos, hfront⟩ := ih (fun e he => hdigit e (List.mem_append_left _ he))
        (List.cons_ne_nil c rest) (by simpa using hlead)
      refine ⟨by omega, ?_⟩
      rw [← Nat.toDigits_append_toDigits (by decide) hpos hlt, hfront, Nat.toDigits_of_lt_base hlt,
        hchar]

/-- The digits of a number other than zero do not start with a zero. -/
theorem head?_toDigits {n : Nat} (hn : 0 < n) : (Nat.toDigits 10 n).head? ≠ some '0' := by
  induction n using Nat.strongRecOn with
  | ind n ih =>
    rw [Nat.toDigits_eq_if (by decide)]
    split
    · next hlt =>
      intro hzero
      have hchar : n.digitChar = '0' := Option.some.inj hzero
      have hvalue := Nat.toNat_digitChar_of_lt_ten hlt
      rw [hchar] at hvalue
      have hcode : '0'.toNat = 48 := rfl
      omega
    · next hge =>
      have hquotient := ih (n / 10) (by omega) (by omega)
      obtain ⟨c, rest, hdigits⟩ := List.exists_cons_of_ne_nil (Nat.toDigits_ne_nil (n := n / 10))
      rw [hdigits] at hquotient ⊢
      exact hquotient

/-- **A number has one decimal.** -/
theorem isDecimal_iff {p : String} {n : Nat} : IsDecimal p n ↔ p = toString n := by
  rw [Nat.toString_eq_ofList_toDigits]
  constructor
  · intro h
    apply String.toList_inj.mp
    rw [String.toList_ofList]
    by_cases hlead : p.toList.head? = some '0'
    · obtain rfl := h.lead hlead
      rw [← h.writes.value]
      rfl
    · rw [← h.writes.value]
      exact (toDigits_ofDigitChars h.writes.isDigit h.writes.ne_nil hlead).2.symm
  · rintro rfl
    refine ⟨by rw [String.toList_ofList]; exact writes_toDigits n, fun hlead => ?_⟩
    rw [String.toList_ofList] at hlead
    rcases Nat.eq_zero_or_pos n with rfl | hpos
    · rfl
    · exact absurd hlead (head?_toDigits hpos)

/-! ## Positions -/

/-- **A text spells a position**: the digits of a number of 64 bits, perhaps behind a plus. -/
structure SpellsPosition (p : String) (n : Nat) : Prop where
  digits : ∃ digits, (p.toList = digits ∨ p.toList = '+' :: digits) ∧ Writes digits n
  small : n < positionLimit

theorem SpellsPosition.colon_notMem {p : String} {n : Nat} (h : SpellsPosition p n) :
    ':' ∉ p.toList := by
  obtain ⟨digits, hp | hp, hdigits⟩ := h.digits
  · exact hp ▸ hdigits.colon_notMem
  · rw [hp]
    exact List.not_mem_cons_of_ne_of_not_mem (by decide) hdigits.colon_notMem

/-- The decimal of a number of 64 bits spells it. -/
theorem IsDecimal.spellsPosition {p : String} {n : Nat} (h : IsDecimal p n)
    (hn : n < positionLimit) : SpellsPosition p n :=
  ⟨⟨p.toList, .inl rfl, h.writes⟩, hn⟩

/-- What reading makes of a run of characters behind the plus, if there is one. -/
theorem ite_digits_eq_some_iff {digits : List Char} {n : Nat} :
    (if digits.isEmpty || !digits.all Char.isDigit then none
      else if digitsNumber digits < positionLimit then some (digitsNumber digits) else none)
        = some n ↔ Writes digits n ∧ n < positionLimit := by
  constructor
  · intro h
    split at h
    · exact absurd h nofun
    next hdigits =>
    split at h
    · next hsmall =>
      obtain rfl := Option.some.inj h
      obtain ⟨hne, hall⟩ : digits ≠ [] ∧ ∀ d ∈ digits, d.isDigit = true := by
        simpa using hdigits
      exact ⟨⟨hne, hall, rfl⟩, hsmall⟩
    · exact absurd h nofun
  · rintro ⟨⟨hne, hall, rfl⟩, hsmall⟩
    have hdigits : ¬(digits.isEmpty || !digits.all Char.isDigit) = true := by
      simpa using ⟨hne, hall⟩
    rw [if_neg hdigits]
    exact if_pos hsmall

theorem position?_eq_some_iff {cs : List Char} {n : Nat} : position? cs = some n
    ↔ ∃ digits, (cs = digits ∨ cs = '+' :: digits) ∧ Writes digits n ∧ n < positionLimit := by
  unfold position?
  split
  · next rest =>
    refine ite_digits_eq_some_iff.trans ⟨fun h => ⟨rest, .inr rfl, h⟩, ?_⟩
    rintro ⟨digits, rfl | heq, h⟩
    · exact absurd List.mem_cons_self h.1.plus_notMem
    · exact (List.cons.inj heq).2 ▸ h
  · next hplain =>
    refine ite_digits_eq_some_iff.trans ⟨fun h => ⟨cs, .inl rfl, h⟩, ?_⟩
    rintro ⟨digits, rfl | heq, h⟩
    · exact h
    · exact absurd heq (hplain digits)

/-- **Reading finds the positions that are spelled.** -/
theorem position?_iff_spellsPosition {p : String} {n : Nat} :
    position? p.toList = some n ↔ SpellsPosition p n := by
  rw [position?_eq_some_iff]
  exact ⟨fun ⟨digits, hp, hdigits, hn⟩ => ⟨⟨digits, hp, hdigits⟩, hn⟩,
    fun ⟨⟨digits, hp, hdigits⟩, hn⟩ => ⟨digits, hp, hdigits, hn⟩⟩

/-! ## Identifiers -/

/-- **A text spells an identifier**, whose position it writes as `p`: the position, the letter of
the action, the kind and the reference stand between colons; the kind is not empty and holds no
colon. -/
structure Spells (s p : String) (c : ChangeId) : Prop where
  text : s = p ++ ":" ++ String.singleton c.action.letter ++ ":" ++ c.kind ++ ":" ++ c.ref
  position : SpellsPosition p c.position
  kind_ne : c.kind ≠ ""
  colon_notMem : ':' ∉ c.kind.toList

theorem toList_spelled (p : String) (c : ChangeId) :
    (p ++ ":" ++ String.singleton c.action.letter ++ ":" ++ c.kind ++ ":" ++ c.ref).toList
      = p.toList ++ ':' :: c.action.letter :: ':' :: (c.kind.toList ++ ':' :: c.ref.toList) := by
  simp

/-- **Reading finds the identifiers that are spelled.** -/
theorem parse?_iff_exists_spells {s : String} {c : ChangeId} :
    parse? s = some c ↔ ∃ p, Spells s p c := by
  constructor
  · intro h
    obtain ⟨⟨position, hposition, -, hs⟩, hkind, hcolon⟩ := eq_append_of_parse? h
    refine ⟨.ofList position, ?_, ?_, hkind, hcolon⟩
    · apply String.toList_inj.mp
      rw [toList_spelled, hs, String.toList_ofList]
    · rw [← position?_iff_spellsPosition, String.toList_ofList, hposition]
  · rintro ⟨p, h⟩
    have hs : s.toList = p.toList
        ++ ':' :: c.action.letter :: ':' :: (c.kind.toList ++ ':' :: c.ref.toList) := by
      rw [h.text, toList_spelled]
    have hkind : c.kind.toList.isEmpty = false := by
      simpa using h.kind_ne
    rw [parse?_eq_of_toList h.position.colon_notMem hs,
      position?_iff_spellsPosition.mpr h.position, Option.bind_some,
      splitFirst_append h.colon_notMem, Option.bind_some, hkind, if_neg Bool.false_ne_true,
      String.ofList_toList, String.ofList_toList]

/-- **Writing what is spelled puts the decimal of its position in place of the position.** -/
theorem Spells.text_eq {s p : String} {c : ChangeId} (h : Spells s p c) :
    ∃ tail, s = p ++ ":" ++ tail ∧ c.text = toString c.position ++ ":" ++ tail := by
  refine ⟨.singleton c.action.letter ++ ":" ++ c.kind ++ ":" ++ c.ref, ?_, ?_⟩
  · rw [h.text]
    simp only [String.append_assoc]
  · simp only [ChangeId.text, String.append_assoc]

/-- **A written identifier spells itself.** -/
theorem spells_text {c : ChangeId} (hposition : c.position < positionLimit) (hkind : c.kind ≠ "")
    (hcolon : ':' ∉ c.kind.toList) : Spells c.text (toString c.position) c where
  text := rfl
  position := (isDecimal_iff.mpr rfl).spellsPosition hposition
  kind_ne := hkind
  colon_notMem := hcolon

/-- **Reading accepts exactly the texts that spell identifiers** and finds what they spell; a text
spells its parts in one way.  Writing what was read puts the decimal of the position in place of the
position, whatever its spelling, and keeps the rest; and every identifier of 64 bits whose kind is
not empty and holds no colon is read from what it is written as. -/
theorem parse?_eq_some_iff_spells :
    (∀ (s : String) (c : ChangeId), parse? s = some c ↔ ∃ p, Spells s p c)
    ∧ (∀ (s p : String) (c : ChangeId), Spells s p c →
      (∀ (q : String) (d : ChangeId), Spells s q d → q = p ∧ d = c)
      ∧ ∃ decimal tail, IsDecimal decimal c.position ∧ s = p ++ ":" ++ tail
        ∧ c.text = decimal ++ ":" ++ tail)
    ∧ ∀ c : ChangeId, c.position < positionLimit → c.kind ≠ "" → ':' ∉ c.kind.toList →
      parse? c.text = some c := by
  refine ⟨fun s c => parse?_iff_exists_spells, fun s p c h => ⟨fun q d hd => ?_, ?_⟩,
    fun c hposition hkind hcolon =>
      parse?_iff_exists_spells.mpr ⟨_, spells_text hposition hkind hcolon⟩⟩
  · have hparts : d = c := Option.some.inj
      ((parse?_iff_exists_spells.mpr ⟨q, hd⟩).symm.trans (parse?_iff_exists_spells.mpr ⟨p, h⟩))
    subst hparts
    have hsame := hd.text.symm.trans h.text
    simp only [String.append_assoc] at hsame
    exact ⟨(String.append_left_inj _).mp hsame, rfl⟩
  · obtain ⟨tail, hs, htext⟩ := h.text_eq
    exact ⟨_, tail, isDecimal_iff.mpr rfl, hs, htext⟩

/-- A plus, zeros in front, colons and digits in the reference. -/
theorem parse?_eq_some_iff_spells_zeroPadded :
    Spells "+007:u:api:shop:9:c" "+007" ⟨7, .update, "api", "shop:9:c"⟩
    ∧ parse? "+007:u:api:shop:9:c" = some ⟨7, .update, "api", "shop:9:c"⟩
    ∧ parse? "7:u:api:shop:9:c" = some ⟨7, .update, "api", "shop:9:c"⟩ := by
  have hspells : Spells "+007:u:api:shop:9:c" "+007" ⟨7, .update, "api", "shop:9:c"⟩ := {
    text := by decide
    position := {
      digits := ⟨['0', '0', '7'], .inr (by decide), by decide, List.all_eq_true.mp (by decide),
        by decide⟩
      small := by decide }
    kind_ne := by decide
    colon_notMem := by decide }
  exact ⟨hspells, (parse?_eq_some_iff_spells.1 _ _).mpr ⟨_, hspells⟩,
    parse?_eq_some_iff_spells.2.2 ⟨7, .update, "api", "shop:9:c"⟩ (by decide) (by decide)
      (by decide)⟩

end ChangeId

end Reconcile
