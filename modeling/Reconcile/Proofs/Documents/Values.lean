import Reconcile.Proofs.Dict
import Reconcile.Proofs.Pieces
import Reconcile.Value

/-!
# Proofs/Documents/Values — field values of documents survive being written

A reference is written as a text, so not every value comes back: a text that looks like a reference
comes back as one.  What was read from a tree does come back (`Value.ofJson_toJson_ofJson`), because
reading leaves no such text, keeps no reference whose parts run into one another
(`Reference.parse?_text_of_parse?`), and lists maps in the order of their keys.
-/

namespace Reconcile

/-! ## References -/

namespace Reference

/-- **A reference reads as itself**: its name and its field are there, and no `#` stands in its
name. -/
structure Legible (r : Reference) : Prop where
  target : r.target ≠ ""
  unmarked : '#' ∉ r.target.toList
  field : r.field ≠ ""

instance (r : Reference) : Decidable r.Legible :=
  decidable_of_iff (r.target ≠ "" ∧ '#' ∉ r.target.toList ∧ r.field ≠ "")
    ⟨fun ⟨htarget, hmark, hfield⟩ => ⟨htarget, hmark, hfield⟩, fun h => ⟨h.1, h.2, h.3⟩⟩

/-- A legible reference is what its text says. -/
theorem Legible.parse?_text {r : Reference} (h : r.Legible) : parse? r.text = some r := by
  have htext : r.text.toList = marker.toList ++ (r.target.toList ++ '#' :: r.field.toList) := by
    simp [text]
  have htarget : r.target.toList ≠ [] := by simpa using h.target
  have hfield : r.field.toList ≠ [] := by simpa using h.field
  rw [parse?, htext, dropStart?_append]
  simp [ofBody?, splitFirst_append h.unmarked, htarget, hfield]

/-- What is read as a reference is legible: its parts were cut at the first `#`. -/
theorem legible_of_parse? {s : String} {r : Reference} (h : parse? s = some r) : r.Legible := by
  obtain ⟨body, -, hbody⟩ := Option.bind_eq_some_iff.mp h
  unfold ofBody? at hbody
  dsimp only at hbody
  split at hbody
  · exact absurd hbody (Option.some_ne_none r).symm
  next hparts =>
  obtain rfl := Option.some.inj hbody
  obtain ⟨htarget, hfield⟩ : ¬_ ∧ ¬_ := not_or.mp (by simpa only [Bool.or_eq_true] using hparts)
  refine ⟨by simpa using htarget, ?_, by simpa using hfield⟩
  rw [String.toList_ofList]
  rcases hsplit : splitFirst '#' body with _ | ⟨l, rest⟩
  · simpa using not_mem_of_splitFirst_eq_none hsplit
  · simpa using not_mem_of_splitFirst hsplit

/-- **What reads as a reference is written as a text that reads as the same reference.** -/
theorem parse?_text_of_parse? {s : String} {r : Reference} (h : parse? s = some r) :
    parse? r.text = some r := (legible_of_parse? h).parse?_text

end Reference

/-! ## Values -/

namespace Value

theorem ofJson_toJson_ofText (s : String) : ofJson (toJson (ofText s)) = ofText s := by
  unfold ofText
  split
  · next r hr => rw [toJson, ofJson, ofText, Reference.parse?_text_of_parse? hr]
  · next hs => rw [toJson, ofJson, ofText, hs]

/-- Entries whose values come back come back themselves. -/
theorem ofMembers_toMembers {l : List (String × Value)} (h : ∀ e ∈ l, ofJson (toJson e.2) = e.2) :
    ofMembers (toMembers l) = l := by
  induction l with
  | nil => rfl
  | cons e rest ih =>
    rw [toMembers, ofMembers, h e List.mem_cons_self,
      ih fun e he => h e (List.mem_cons_of_mem _ he)]

mutual

/-- **What a tree holds survives being written.** -/
theorem ofJson_toJson_ofJson : ∀ j : Json, ofJson (toJson (ofJson j)) = ofJson j
  | .null => rfl
  | .bool _ => rfl
  | .number _ => rfl
  | .string s => ofJson_toJson_ofText s
  | .array items => congrArg Value.list (ofItems_toItems_ofItems items)
  | .object members => by
    have hvalues : ∀ e ∈ Entries.ofList (ofMembers members), ofJson (toJson e.2) = e.2 :=
      fun e he => ofJson_toJson_of_mem_ofMembers members e (Entries.mem_of_mem_ofList he)
    rw [ofJson, toJson, ofJson, ofMembers_toMembers hvalues,
      Entries.ofList_of_ascending (Entries.ascending_ofList _)]

theorem ofItems_toItems_ofItems :
    ∀ items : List Json, ofItems (toItems (ofItems items)) = ofItems items
  | [] => rfl
  | item :: rest => by
    rw [ofItems, toItems, ofItems, ofJson_toJson_ofJson item, ofItems_toItems_ofItems rest]

theorem ofJson_toJson_of_mem_ofMembers :
    ∀ members : List (String × Json), ∀ e ∈ ofMembers members, ofJson (toJson e.2) = e.2
  | [], _, he => absurd he List.not_mem_nil
  | (_, value) :: rest, e, he => by
    rcases List.mem_cons.mp he with rfl | hrest
    · exact ofJson_toJson_ofJson value
    · exact ofJson_toJson_of_mem_ofMembers rest e hrest

end

theorem toMembers_eq_map (l : List (String × Value)) :
    toMembers l = l.map fun e => (e.1, toJson e.2) := by
  induction l with
  | nil => rfl
  | cons e rest ih => rw [toMembers, ih, List.map_cons]

end Value

theorem Value.ofMembers_eq_map (l : List (String × Json)) :
    Value.ofMembers l = l.map fun e => (e.1, Value.ofJson e.2) := by
  induction l with
  | nil => rfl
  | cons e rest ih => rw [Value.ofMembers, ih, List.map_cons]

theorem FieldMap.toJson_eq (fields : FieldMap) :
    fields.toJson = .object (fields.map Value.toJson).entries :=
  congrArg Json.object (Value.toMembers_eq_map fields.entries)

/-! ## Texts that are no references -/

namespace Value

theorem ofText_of_parse?_eq_none {s : String} (h : Reference.parse? s = none) :
    ofText s = .text s := by
  rw [ofText, h]

/-- A text comes back unless it reads as a reference. -/
theorem ofJson_toJson_text {s : String} (h : Reference.parse? s = none) :
    ofJson (toJson (.text s)) = .text s := ofText_of_parse?_eq_none h

/-- The values of a map of texts are read one by one. -/
theorem ofJson_toJson_ofTexts (d : Dict String) :
    ofJson (toJson (ofTexts d)) = .map (d.map ofText).entries := by
  have hmembers : ofMembers (toMembers (d.map text).entries) = (d.map ofText).entries := by
    rw [toMembers_eq_map, ofMembers_eq_map, List.map_map]
    simp only [Dict.map, List.map_map]
    rfl
  rw [ofTexts, toJson, ofJson, hmembers, Entries.ofList_of_ascending (d.map ofText).ascending]

/-- Texts under keys come back unless one of them reads as a reference. -/
theorem ofJson_toJson_ofTexts_of_forall {d : Dict String}
    (h : ∀ e ∈ d.entries, Reference.parse? e.2 = none) :
    ofJson (toJson (ofTexts d)) = ofTexts d := by
  rw [ofJson_toJson_ofTexts, ofTexts]
  exact congrArg map (List.map_congr_left fun e he => by rw [ofText_of_parse?_eq_none (h e he)])

theorem parse?_eq_none_of_same {s : String} (h : same (ofText s) (.text s) = true) :
    Reference.parse? s = none := by
  rcases hparse : Reference.parse? s with _ | r
  · rfl
  · rw [ofText, hparse] at h
    exact absurd h Bool.false_ne_true

/-- A text that comes back as an equal value does not read as a reference. -/
theorem parse?_eq_none_of_beq {s : String} (h : (ofJson (toJson (.text s)) == .text s) = true) :
    Reference.parse? s = none := parse?_eq_none_of_same h

theorem same_of_sameEntries {α : Type} {f g : α → Value} {l : List (String × α)}
    (h : sameEntries (l.map fun e => (e.1, f e.2)) (l.map fun e => (e.1, g e.2)) = true) :
    ∀ e ∈ l, same (f e.2) (g e.2) = true := by
  induction l with
  | nil => simp
  | cons e rest ih =>
    rw [List.map_cons, List.map_cons, sameEntries, Bool.and_eq_true, Bool.and_eq_true] at h
    exact List.forall_mem_cons.mpr ⟨h.1.2, ih h.2⟩

/-- Texts under keys that come back as equal values do not read as references. -/
theorem parse?_eq_none_of_beq_ofTexts {d : Dict String}
    (h : (ofJson (toJson (ofTexts d)) == ofTexts d) = true) :
    ∀ e ∈ d.entries, Reference.parse? e.2 = none := by
  rw [ofJson_toJson_ofTexts] at h
  have hentries : sameEntries (d.map ofText).entries (d.map text).entries = true := h
  intro e he
  exact parse?_eq_none_of_same (same_of_sameEntries hentries e he)

end Value

/-! ## Equality -/

theorem Number.same_self (n : Number) : same n n = true := by
  rcases n with m | x
  · exact beq_self_eq_true m
  · rw [same, Binary64.equal, beq_self_eq_true, Bool.true_or]

namespace Value

mutual

theorem same_self : ∀ v : Value, same v v = true
  | .null => rfl
  | .bool b => beq_self_eq_true b
  | .number n => Number.same_self n
  | .text s => beq_self_eq_true s
  | .list items => sameItems_self items
  | .map entries => sameEntries_self entries
  | .reference r => beq_self_eq_true r

theorem sameItems_self : ∀ items : List Value, sameItems items items = true
  | [] => rfl
  | v :: rest => by rw [sameItems, same_self v, sameItems_self rest]; rfl

theorem sameEntries_self : ∀ entries : List (String × Value), sameEntries entries entries = true
  | [] => rfl
  | (k, v) :: rest => by rw [sameEntries, beq_self_eq_true, same_self v, sameEntries_self rest]; rfl

end

instance : ReflBEq Value := ⟨same_self _⟩

end Value

end Reconcile
