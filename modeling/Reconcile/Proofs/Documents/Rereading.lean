import Reconcile.Proofs.Documents.Values

/-!
# Proofs/Documents/Rereading — which field values come back

A value comes back when it is what its own tree holds.  This is decided by what occurs in it, at any
depth (`Value.Everywhere`): its texts may not read as references, and its references have to read as
themselves (`Value.Legible`).  Main fact: `Value.ofJson_toJson_eq_iff_legible` — those values come
back and no others, and whatever is read from a tree is one of them.

Maps list their keys in ascending order; where a value is taken as it stands, this is asked of every
map that occurs in it (`Value.Ordered`).
-/

namespace Reconcile

namespace Value

/-! ## What occurs in a value -/

/-- **Induction on values**: of a list it is known for the items, of a map for the entries. -/
@[elab_as_elim]
theorem inductionOn {motive : Value → Prop} (v : Value) (null : motive .null)
    (bool : ∀ b, motive (.bool b)) (number : ∀ n, motive (.number n))
    (text : ∀ s, motive (.text s)) (reference : ∀ r, motive (.reference r))
    (list : ∀ items, (∀ v ∈ items, motive v) → motive (.list items))
    (map : ∀ entries, (∀ e ∈ entries, motive e.2) → motive (.map entries)) : motive v :=
  match v with
  | .null => null
  | .bool b => bool b
  | .number n => number n
  | .text s => text s
  | .reference r => reference r
  | .list items => list items fun v _ => inductionOn v null bool number text reference list map
  | .map entries => map entries fun e _ =>
      inductionOn e.2 null bool number text reference list map
termination_by v
decreasing_by
  · next hv => exact Nat.lt_trans (List.sizeOf_lt_of_mem hv) (by simp)
  · next he =>
    have hentry : sizeOf e.2 ≤ sizeOf e := by
      obtain ⟨key, v⟩ := e
      exact Nat.le_add_left _ _
    exact Nat.lt_trans (Nat.lt_of_le_of_lt hentry (List.sizeOf_lt_of_mem he)) (by simp)

/-- **A value occurs in another one**, at any depth. -/
inductive Occurs (w : Value) : Value → Prop
  | itself : Occurs w w
  | item {items : List Value} {v : Value} (hv : v ∈ items) (h : Occurs w v) :
      Occurs w (.list items)
  | entry {entries : List (String × Value)} {e : String × Value} (he : e ∈ entries)
      (h : Occurs w e.2) : Occurs w (.map entries)

/-- Something holds of all that occurs in a value. -/
def Everywhere (P : Value → Prop) (v : Value) : Prop := ∀ w, Occurs w v → P w

/-- A value without parts. -/
def IsLeaf : Value → Prop
  | .list _ | .map _ => False
  | _ => True

section Everywhere

variable {P : Value → Prop}

theorem everywhere_list_iff {items : List Value} :
    (list items).Everywhere P ↔ P (.list items) ∧ ∀ v ∈ items, v.Everywhere P := by
  constructor
  · exact fun h => ⟨h _ .itself, fun v hv w hw => h w (.item hv hw)⟩
  · rintro ⟨hself, hitems⟩ w hw
    cases hw with
    | itself => exact hself
    | item hv h => exact hitems _ hv w h

theorem everywhere_map_iff {entries : List (String × Value)} :
    (map entries).Everywhere P ↔ P (.map entries) ∧ ∀ e ∈ entries, e.2.Everywhere P := by
  constructor
  · exact fun h => ⟨h _ .itself, fun e he w hw => h w (.entry he hw)⟩
  · rintro ⟨hself, hentries⟩ w hw
    cases hw with
    | itself => exact hself
    | entry he h => exact hentries _ he w h

/-- In what has no parts nothing else occurs. -/
theorem everywhere_iff_of_leaf {v : Value} (hleaf : v.IsLeaf) : v.Everywhere P ↔ P v := by
  refine ⟨fun h => h v .itself, fun h w hw => ?_⟩
  cases hw with
  | itself => exact h
  | item => exact absurd hleaf not_false
  | entry => exact absurd hleaf not_false

end Everywhere

/-- Keys come in ascending order. -/
def ListsInOrder : Value → Prop
  | .map entries => Entries.Ascending entries
  | _ => True

/-- Every map in a value lists its keys in ascending order. -/
def Ordered (v : Value) : Prop := v.Everywhere ListsInOrder

/-- A text does not read as a reference, and a reference reads as itself. -/
def ReadsAsItself : Value → Prop
  | .text s => Reference.parse? s = none
  | .reference r => r.Legible
  | _ => True

/-- **A value is legible**: at any depth, no text reads as a reference, and references read as
themselves. -/
def Legible (v : Value) : Prop := v.Everywhere ReadsAsItself

theorem ordered_of_leaf {v : Value} (hleaf : v.IsLeaf) : v.Ordered := by
  refine (everywhere_iff_of_leaf hleaf).mpr ?_
  cases v with
  | map => exact absurd hleaf not_false
  | _ => trivial

theorem ordered_list_iff {items : List Value} :
    (list items).Ordered ↔ ∀ v ∈ items, v.Ordered :=
  everywhere_list_iff.trans (and_iff_right trivial)

theorem ordered_map_iff {entries : List (String × Value)} :
    (map entries).Ordered ↔ Entries.Ascending entries ∧ ∀ e ∈ entries, e.2.Ordered :=
  everywhere_map_iff

theorem legible_of_leaf {v : Value} (hleaf : v.IsLeaf) (h : v.ReadsAsItself) : v.Legible :=
  (everywhere_iff_of_leaf hleaf).mpr h

theorem legible_list_iff {items : List Value} :
    (list items).Legible ↔ ∀ v ∈ items, v.Legible :=
  everywhere_list_iff.trans (and_iff_right trivial)

theorem legible_map_iff {entries : List (String × Value)} :
    (map entries).Legible ↔ ∀ e ∈ entries, e.2.Legible :=
  everywhere_map_iff.trans (and_iff_right trivial)

theorem legible_text_iff {s : String} : (text s).Legible ↔ Reference.parse? s = none :=
  everywhere_iff_of_leaf trivial

theorem legible_reference_iff {r : Reference} : (reference r).Legible ↔ r.Legible :=
  everywhere_iff_of_leaf trivial

/-! ## Deciding it -/

mutual

/-- Tests all that occurs in a value. -/
def check (p : Value → Bool) : Value → Bool
  | .list items => p (.list items) && checkItems p items
  | .map entries => p (.map entries) && checkEntries p entries
  | v => p v

/-- Tests all that occurs in the items of a list. -/
def checkItems (p : Value → Bool) : List Value → Bool
  | [] => true
  | v :: rest => check p v && checkItems p rest

/-- Tests all that occurs in the values of entries. -/
def checkEntries (p : Value → Bool) : List (String × Value) → Bool
  | [] => true
  | (_, v) :: rest => check p v && checkEntries p rest

end

theorem checkItems_iff {p : Value → Bool} {items : List Value} :
    checkItems p items = true ↔ ∀ v ∈ items, check p v = true := by
  induction items with
  | nil => simp [checkItems]
  | cons v rest ih => rw [checkItems, Bool.and_eq_true, ih, List.forall_mem_cons]

theorem checkEntries_iff {p : Value → Bool} {entries : List (String × Value)} :
    checkEntries p entries = true ↔ ∀ e ∈ entries, check p e.2 = true := by
  induction entries with
  | nil => simp [checkEntries]
  | cons e rest ih => rw [checkEntries, Bool.and_eq_true, ih, List.forall_mem_cons]

theorem check_iff {p : Value → Bool} {v : Value} :
    check p v = true ↔ v.Everywhere fun w => p w = true := by
  induction v using inductionOn with
  | null | bool | number | text | reference =>
    rw [everywhere_iff_of_leaf]
    · rfl
    · trivial
  | list items ih =>
    rw [check, Bool.and_eq_true, checkItems_iff, everywhere_list_iff]
    exact and_congr_right fun _ => forall₂_congr ih
  | map entries ih =>
    rw [check, Bool.and_eq_true, checkEntries_iff, everywhere_map_iff]
    exact and_congr_right fun _ => forall₂_congr ih

instance {P : Value → Prop} [DecidablePred P] (v : Value) : Decidable (v.Everywhere P) :=
  decidable_of_iff (check (fun w => decide (P w)) v = true) (by simp [check_iff])

instance : DecidablePred ListsInOrder
  | .map entries => inferInstanceAs (Decidable (entries.Pairwise fun a b => a.1 < b.1))
  | .list _ | .null | .bool _ | .number _ | .text _ | .reference _ => .isTrue trivial

instance : DecidablePred ReadsAsItself
  | .text s => inferInstanceAs (Decidable (Reference.parse? s = none))
  | .reference r => inferInstanceAs (Decidable r.Legible)
  | .list _ | .map _ | .null | .bool _ | .number _ => .isTrue trivial

instance (v : Value) : Decidable v.Ordered := inferInstanceAs (Decidable (v.Everywhere _))

instance (v : Value) : Decidable v.Legible := inferInstanceAs (Decidable (v.Everywhere _))

/-! ## Legible values come back -/

theorem ofItems_toItems {items : List Value} (h : ∀ v ∈ items, ofJson v.toJson = v) :
    ofItems (toItems items) = items := by
  induction items with
  | nil => rfl
  | cons v rest ih =>
    rw [toItems, ofItems, h v List.mem_cons_self, ih fun w hw => h w (List.mem_cons_of_mem _ hw)]

/-- **A legible value comes back.** -/
theorem ofJson_toJson_of_legible {v : Value} (hordered : v.Ordered) (h : v.Legible) :
    ofJson v.toJson = v := by
  induction v using inductionOn with
  | null | bool | number => rfl
  | text s => exact ofJson_toJson_text (legible_text_iff.mp h)
  | reference r =>
    rw [toJson, ofJson, ofText, (legible_reference_iff.mp h).parse?_text]
  | list items ih =>
    have hitems : ∀ v ∈ items, ofJson v.toJson = v := fun v hv =>
      ih v hv (ordered_list_iff.mp hordered v hv) (legible_list_iff.mp h v hv)
    rw [toJson, ofJson, ofItems_toItems hitems]
  | map entries ih =>
    obtain ⟨hascending, hparts⟩ := ordered_map_iff.mp hordered
    have hentries : ∀ e ∈ entries, ofJson e.2.toJson = e.2 := fun e he =>
      ih e he (hparts e he) (legible_map_iff.mp h e he)
    rw [toJson, ofJson, ofMembers_toMembers hentries, Entries.ofList_of_ascending hascending]

/-! ## What comes back is legible -/

theorem same_of_sameItems {f : Value → Value} {items : List Value}
    (h : sameItems (items.map f) items = true) : ∀ v ∈ items, same (f v) v = true := by
  induction items with
  | nil => simp
  | cons v rest ih =>
    rw [List.map_cons, sameItems, Bool.and_eq_true] at h
    exact List.forall_mem_cons.mpr ⟨h.1, ih h.2⟩

theorem ofItems_toItems_eq_map (items : List Value) :
    ofItems (toItems items) = items.map fun v => ofJson v.toJson := by
  induction items with
  | nil => rfl
  | cons v rest ih => rw [toItems, ofItems, ih, List.map_cons]

theorem ofMembers_toMembers_eq_map (entries : List (String × Value)) :
    ofMembers (toMembers entries) = entries.map fun e => (e.1, ofJson e.2.toJson) := by
  rw [toMembers_eq_map, ofMembers_eq_map, List.map_map]
  rfl

theorem legible_of_same_ofText {r : Reference} (h : same (ofText r.text) (.reference r) = true) :
    r.Legible := by
  rcases hparse : Reference.parse? r.text with _ | r' <;> rw [ofText, hparse] at h
  · exact absurd h Bool.false_ne_true
  · obtain rfl : r' = r := eq_of_beq h
    exact Reference.legible_of_parse? hparse

/-- **What comes back as an equal value is legible.** -/
theorem legible_of_same {v : Value} (hordered : v.Ordered) (h : same (ofJson v.toJson) v = true) :
    v.Legible := by
  induction v using inductionOn with
  | null | bool | number => exact legible_of_leaf trivial trivial
  | text s => exact legible_text_iff.mpr (parse?_eq_none_of_same h)
  | reference r => exact legible_reference_iff.mpr (legible_of_same_ofText h)
  | list items ih =>
    rw [toJson, ofJson, same, ofItems_toItems_eq_map] at h
    have hitems := same_of_sameItems h
    exact legible_list_iff.mpr fun v hv =>
      ih v hv (ordered_list_iff.mp hordered v hv) (hitems v hv)
  | map entries ih =>
    obtain ⟨hascending, hparts⟩ := ordered_map_iff.mp hordered
    have hread : Entries.Ascending (entries.map fun e => (e.1, ofJson e.2.toJson)) :=
      List.pairwise_map.mpr hascending
    rw [toJson, ofJson, same, ofMembers_toMembers_eq_map, Entries.ofList_of_ascending hread] at h
    have hentries : ∀ e ∈ entries, same (ofJson e.2.toJson) e.2 = true :=
      same_of_sameEntries (f := fun v => ofJson v.toJson) (g := id) (by simpa using h)
    exact legible_map_iff.mpr fun e he => ih e he (hparts e he) (hentries e he)

/-! ## What is read from a tree -/

theorem ordered_ofText (s : String) : (ofText s).Ordered := by
  unfold ofText
  split
  · exact ordered_of_leaf trivial
  · exact ordered_of_leaf trivial

mutual

/-- **Trees hold maps in the order of their keys.** -/
theorem ordered_ofJson : ∀ j : Json, (ofJson j).Ordered
  | .null => ordered_of_leaf trivial
  | .bool _ => ordered_of_leaf trivial
  | .number _ => ordered_of_leaf trivial
  | .string s => ordered_ofText s
  | .array items => ordered_list_iff.mpr (ordered_of_mem_ofItems items)
  | .object members => ordered_map_iff.mpr ⟨Entries.ascending_ofList _, fun e he =>
      ordered_of_mem_ofMembers members e (Entries.mem_of_mem_ofList he)⟩

theorem ordered_of_mem_ofItems : ∀ items : List Json, ∀ v ∈ ofItems items, v.Ordered
  | [], _, hv => absurd hv List.not_mem_nil
  | item :: rest, v, hv => by
    rcases List.mem_cons.mp hv with rfl | hrest
    · exact ordered_ofJson item
    · exact ordered_of_mem_ofItems rest v hrest

theorem ordered_of_mem_ofMembers :
    ∀ members : List (String × Json), ∀ e ∈ ofMembers members, e.2.Ordered
  | [], _, he => absurd he List.not_mem_nil
  | (_, value) :: rest, e, he => by
    rcases List.mem_cons.mp he with rfl | hrest
    · exact ordered_ofJson value
    · exact ordered_of_mem_ofMembers rest e hrest

end

/-- **Exactly the legible values come back**, as they are or as equal ones; what is read from a tree
is legible, so reading it again after it was written gives the same. -/
theorem ofJson_toJson_eq_iff_legible :
    (∀ v : Value, v.Ordered → (ofJson v.toJson = v ↔ v.Legible)
      ∧ ((ofJson v.toJson == v) = true ↔ v.Legible))
    ∧ ∀ j : Json, (ofJson j).Ordered ∧ (ofJson j).Legible
      ∧ ofJson (ofJson j).toJson = ofJson j := by
  have hsame : ∀ v : Value, ofJson v.toJson = v → same (ofJson v.toJson) v = true := by
    intro v hback
    rw [hback]
    exact same_self v
  constructor
  · intro v hordered
    have hlegible : same (ofJson v.toJson) v = true → v.Legible := legible_of_same hordered
    have hback : v.Legible → ofJson v.toJson = v := ofJson_toJson_of_legible hordered
    exact ⟨⟨fun h => hlegible (hsame v h), hback⟩, hlegible, fun h => hsame v (hback h)⟩
  · intro j
    have hback := ofJson_toJson_ofJson j
    exact ⟨ordered_ofJson j, legible_of_same (ordered_ofJson j) (hsame _ hback), hback⟩

/-- A reference to a field with a `#` in its name, and texts that are nearly references, inside lists
and maps. -/
def nestedFields : Value :=
  .map [("origin", .reference ⟨"portal", "title#short"⟩),
    ("steps", .list [.text "__REF__:#id", .map [("next", .text "__REF__:portal#")]])]

/-- The same with a text that reads as a reference. -/
def misreadFields : Value :=
  .map [("steps", .list [.map [("next", .text "__REF__:portal")]])]

theorem ofJson_toJson_nestedFields : nestedFields.Ordered ∧ nestedFields.Legible
    ∧ ofJson nestedFields.toJson = nestedFields
    ∧ misreadFields.Ordered ∧ ¬misreadFields.Legible
    ∧ ofJson misreadFields.toJson ≠ misreadFields := by
  have hordered : nestedFields.Ordered := by decide
  have hlegible : nestedFields.Legible := by decide
  have hmisread : misreadFields.Ordered := by decide
  have hillegible : ¬misreadFields.Legible := by decide
  exact ⟨hordered, hlegible, (ofJson_toJson_eq_iff_legible.1 _ hordered).1.mpr hlegible, hmisread,
    hillegible, fun h => hillegible ((ofJson_toJson_eq_iff_legible.1 _ hmisread).1.mp h)⟩

end Value

end Reconcile
