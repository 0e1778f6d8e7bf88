import Reconcile.Plan.Numbering
import Reconcile.Proofs.Pieces

/-!
# Proofs/ChangeId — what moving an identifier to another position changes

The position of an identifier ends at its first colon, and digits hold none, so it can be read off
the text (`ChangeId.position_eq_of_text_eq`).  Moving an identifier replaces the position and keeps
the rest, also where the kind holds colons and reading cuts the rest elsewhere than writing did
(`ChangeId.eq_text_of_moved?`); so whether it can be read is a matter of the rest
(`ChangeId.isSome_parse?_text`).
-/

namespace Reconcile

namespace ChangeId

/-! ## The text of an identifier -/

theorem toList_text (c : ChangeId) : c.text.toList = Nat.toDigits 10 c.position
    ++ ':' :: (c.action.letter :: ':' :: (c.kind.toList ++ ':' :: c.ref.toList)) := by
  simp [text]

theorem colon_notMem_toDigits (n : Nat) : ':' ∉ Nat.toDigits 10 n := by
  intro h
  have hdigit := Nat.isDigit_of_mem_toDigits (by decide) (by decide) h
  exact absurd hdigit (by decide)

theorem splitFirst_text (c : ChangeId) : splitFirst ':' c.text.toList
    = some (Nat.toDigits 10 c.position,
      c.action.letter :: ':' :: (c.kind.toList ++ ':' :: c.ref.toList)) := by
  rw [toList_text, splitFirst_append (colon_notMem_toDigits _)]

/-- **The position can be read off the text.** -/
theorem position_eq_of_text_eq {c d : ChangeId} (h : c.text = d.text) :
    c.position = d.position := by
  have hsplit := splitFirst_text c
  rw [h, splitFirst_text d] at hsplit
  have hdigits := (Prod.mk.inj (Option.some.inj hsplit)).1
  calc c.position
      = Nat.ofDigitChars 10 (Nat.toDigits 10 c.position) 0 := Nat.ofDigitChars_ten_toDigits.symm
    _ = Nat.ofDigitChars 10 (Nat.toDigits 10 d.position) 0 := by rw [hdigits]
    _ = d.position := Nat.ofDigitChars_ten_toDigits

theorem splitFirst_letter (a : Action) (rest : List Char) :
    splitFirst ':' (a.letter :: ':' :: rest) = some ([a.letter], rest) := by
  cases a <;> simp [splitFirst, Action.letter]

/-- Reading goes on behind the position, past the letter of the action. -/
theorem parse?_eq_of_toList {id : String} {position rest : List Char} {a : Action}
    (hcolon : ':' ∉ position) (hid : id.toList = position ++ ':' :: a.letter :: ':' :: rest) :
    parse? id = (position? position).bind fun n => (splitFirst ':' rest).bind fun x =>
      if x.1.isEmpty then none else some ⟨n, a, String.ofList x.1, String.ofList x.2⟩ := by
  simp only [parse?, hid, splitFirst_append hcolon, Option.bind_eq_bind, Option.bind_some,
    splitFirst_letter, action?, Action.ofLetter?_letter]
  rfl

/-- Reading a written identifier goes behind the digits of its position. -/
theorem parse?_text_eq (c : ChangeId) : parse? c.text
    = (position? (Nat.toDigits 10 c.position)).bind fun n =>
      (splitFirst ':' (c.kind.toList ++ ':' :: c.ref.toList)).bind fun x =>
        if x.1.isEmpty then none
        else some ⟨n, c.action, String.ofList x.1, String.ofList x.2⟩ :=
  parse?_eq_of_toList (colon_notMem_toDigits _) (toList_text c)

/-- Reading a written identifier finds its action, and a kind and a reference that together write
what its own kind and reference write. -/
theorem parse?_text {c d : ChangeId} (h : parse? c.text = some d) :
    d.action = c.action
      ∧ d.kind.toList ++ ':' :: d.ref.toList = c.kind.toList ++ ':' :: c.ref.toList := by
  rw [parse?_text_eq] at h
  obtain ⟨n, -, h⟩ := Option.bind_eq_some_iff.mp h
  obtain ⟨⟨kind, ref⟩, hsplit, h⟩ := Option.bind_eq_some_iff.mp h
  dsimp only at h
  split at h
  · exact absurd h (by simp)
  · obtain rfl := Option.some.inj h
    exact ⟨rfl, by simpa using (eq_append_of_splitFirst hsplit).symm⟩

/-- The digits of a position are read back. -/
theorem position?_toDigits {n : Nat} (hn : n < positionLimit) :
    position? (Nat.toDigits 10 n) = some n := by
  have hdigit : ∀ d ∈ Nat.toDigits 10 n, d.isDigit = true := fun d hd =>
    Nat.isDigit_of_mem_toDigits (by decide) (by decide) hd
  have hnumber : digitsNumber (Nat.toDigits 10 n) = n := Nat.ofDigitChars_ten_toDigits
  rcases hdigits : Nat.toDigits 10 n with _ | ⟨d, rest⟩
  · exact absurd hdigits Nat.toDigits_ne_nil
  · rw [hdigits] at hdigit hnumber
    have hplus : d ≠ '+' := by
      rintro rfl
      exact absurd (hdigit _ List.mem_cons_self) (by decide)
    have hall : (d :: rest).all Char.isDigit = true := List.all_eq_true.mpr hdigit
    unfold position?
    split
    · next heq => exact absurd (List.cons.inj heq).1 hplus
    · dsimp only
      rw [hall, hnumber, if_pos hn]
      rfl

/-- **A written identifier is read back**, if its kind is not empty and holds no colon. -/
theorem parse?_text_of_kind {c : ChangeId} (hposition : c.position < positionLimit)
    (hkind : c.kind ≠ "") (hcolon : ':' ∉ c.kind.toList) : parse? c.text = some c := by
  have hsome : c.kind.toList.isEmpty = false := by
    rw [List.isEmpty_eq_false_iff]
    exact fun hnil => hkind (String.toList_inj.mp hnil)
  rw [parse?_text_eq, position?_toDigits hposition, Option.bind_some, splitFirst_append hcolon,
    Option.bind_some, hsome, if_neg Bool.false_ne_true, String.ofList_toList, String.ofList_toList]

theorem isSome_parse?_of_kind {c : ChangeId} (hposition : c.position < positionLimit)
    (hkind : c.kind ≠ "") (hcolon : ':' ∉ c.kind.toList) : (parse? c.text).isSome = true := by
  rw [parse?_text_of_kind hposition hkind hcolon]
  rfl

theorem letter_of_ofLetter? {letter : Char} {a : Action} (h : Action.ofLetter? letter = some a) :
    a.letter = letter := by
  unfold Action.ofLetter? at h
  split at h
  · exact Option.some.inj h ▸ rfl
  · exact Option.some.inj h ▸ rfl
  · exact Option.some.inj h ▸ rfl
  · exact absurd h (by simp)

theorem eq_singleton_of_action? {cs : List Char} {a : Action} (h : action? cs = some a) :
    cs = [a.letter] := by
  match cs with
  | [] => simp [action?] at h
  | [c] => rw [letter_of_ofLetter? h]
  | _ :: _ :: _ => simp [action?] at h

/-- **What is read stands in the identifier behind its position**; the kind is not empty and holds no
colon. -/
theorem eq_append_of_parse? {id : String} {c : ChangeId} (h : parse? id = some c) :
    (∃ position, position? position = some c.position ∧ ':' ∉ position ∧ id.toList = position
      ++ ':' :: (c.action.letter :: ':' :: (c.kind.toList ++ ':' :: c.ref.toList)))
    ∧ c.kind ≠ "" ∧ ':' ∉ c.kind.toList := by
  obtain ⟨⟨position, rest⟩, hid, h⟩ := Option.bind_eq_some_iff.mp h
  obtain ⟨n, hposition, h⟩ := Option.bind_eq_some_iff.mp h
  obtain ⟨⟨letter, rest'⟩, hrest, h⟩ := Option.bind_eq_some_iff.mp h
  obtain ⟨action, haction, h⟩ := Option.bind_eq_some_iff.mp h
  obtain ⟨⟨kind, ref⟩, hkindref, h⟩ := Option.bind_eq_some_iff.mp h
  dsimp only at hrest haction hkindref h
  split at h
  · exact absurd h nofun
  · next hkind =>
    obtain rfl := Option.some.inj h
    refine ⟨⟨position, hposition, not_mem_of_splitFirst hid, ?_⟩, ?_, ?_⟩
    · rw [eq_append_of_splitFirst hid, eq_append_of_splitFirst hrest,
        eq_append_of_splitFirst hkindref, eq_singleton_of_action? haction, String.toList_ofList,
        String.toList_ofList]
      rfl
    · intro hempty
      have hnil : kind = [] := by simpa using congrArg String.toList hempty
      exact hkind (hnil ▸ rfl)
    · rw [String.toList_ofList]
      exact not_mem_of_splitFirst hkindref

/-- **An identifier that can be read is a position and a tail, and another position leaves the tail
as it is.** -/
theorem exists_tail_of_parse? {id : String} {c : ChangeId} (h : parse? id = some c) :
    ∃ position tail : String, ':' ∉ position.toList ∧ id = position ++ ":" ++ tail
      ∧ ∀ n, { c with position := n }.text = toString n ++ ":" ++ tail := by
  obtain ⟨⟨position, -, hcolon, hid⟩, -, -⟩ := eq_append_of_parse? h
  refine ⟨.ofList position, .singleton c.action.letter ++ ":" ++ c.kind ++ ":" ++ c.ref, ?_, ?_, ?_⟩
  · rwa [String.toList_ofList]
  · apply String.toList_inj.mp
    rw [hid]
    simp
  · intro n
    simp only [text, String.append_assoc]

/-- **An identifier under another position is read back.** -/
theorem parse?_text_of_parse? {id : String} {c : ChangeId} (h : parse? id = some c) {n : Nat}
    (hn : n < positionLimit) :
    parse? { c with position := n }.text = some { c with position := n } :=
  have ⟨_, hkind, hcolon⟩ := eq_append_of_parse? h
  parse?_text_of_kind hn hkind hcolon

/-- **Whether a written identifier can be read does not depend on its position.** -/
theorem isSome_parse?_text {c : ChangeId} {n : Nat} (h : (parse? c.text).isSome = true)
    (hn : n < positionLimit) : (parse? { c with position := n }.text).isSome = true := by
  obtain ⟨d, hd⟩ := Option.isSome_iff_exists.mp h
  rw [parse?_text_eq] at hd ⊢
  obtain ⟨m, -, hd⟩ := Option.bind_eq_some_iff.mp hd
  obtain ⟨x, hsplit, hd⟩ := Option.bind_eq_some_iff.mp hd
  rw [position?_toDigits hn, Option.bind_some, hsplit, Option.bind_some]
  split at hd
  · exact absurd hd (by simp)
  · next hkind =>
    rw [if_neg hkind]
    rfl

/-- **Moving a written identifier replaces its position and keeps the rest.** -/
theorem eq_text_of_moved? {c : ChangeId} {n : Nat} {s : String} (h : moved? c.text n = some s) :
    s = { c with position := n }.text := by
  obtain ⟨d, hd, rfl⟩ := Option.map_eq_some_iff.mp h
  obtain ⟨haction, hrest⟩ := parse?_text hd
  apply String.toList_inj.mp
  rw [toList_text, toList_text]
  simp only [haction, hrest]

/-- Identifiers moved to different positions differ. -/
theorem position_eq_of_moved? {s t new : String} {n m : Nat} (hs : moved? s n = some new)
    (ht : moved? t m = some new) : n = m := by
  obtain ⟨c, -, hc⟩ := Option.map_eq_some_iff.mp hs
  obtain ⟨d, -, hd⟩ := Option.map_eq_some_iff.mp ht
  exact position_eq_of_text_eq (hc.trans hd.symm)

end ChangeId

end Reconcile
