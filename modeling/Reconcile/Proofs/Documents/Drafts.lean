import Reconcile.Declaration
import Reconcile.Json.Reader
import Reconcile.Proofs.Documents.Records
import Reconcile.Resource

/-!
# Proofs/Documents/Drafts — a text is read as the tree that it holds

A decoder looks at a text before anybody has asked what its numbers and strings mean, and looks at
some of it only.  `Source.Agrees` says when two kinds of trees cannot be told apart by a decoder:
every view of one is related to the same view of the other.  Drafts and the trees that they mean
are related so (`Json.Draft.agrees_means`), hence a text that holds a tree is decoded as that tree
(`Json.decodeText?_eq`).
-/

namespace Reconcile

/-! ## Trees that look the same -/

namespace Source

variable {δ ε : Type}

/-- Trees under the same names, one by one. -/
def Named (R : δ → ε → Prop) : List (String × δ) → List (String × ε) → Prop :=
  List.Forall₂ fun x y => x.1 = y.1 ∧ R x.2 y.2

/-- **Related trees look the same**: every view of one is related to the same view of the other. -/
structure Agrees [Source δ] [Source ε] (R : δ → ε → Prop) : Prop where
  isNothing {d : δ} {e : ε} (h : R d e) : Source.isNothing d = Source.isNothing e
  text {d : δ} {e : ε} (h : R d e) : text? d = text? e
  bool {d : δ} {e : ε} (h : R d e) : bool? d = bool? e
  items {d : δ} {e : ε} (h : R d e) : Option.Rel (List.Forall₂ R) (items? d) (items? e)
  entries {d : δ} {e : ε} (h : R d e) : Option.Rel (Named R) (entries? d) (entries? e)
  record {d : δ} {e : ε} (h : R d e) (names : List String) :
    Option.Rel (Named R) (record? names d) (record? names e)
  json {d : δ} {e : ε} (h : R d e) : json? d = json? e

/-- Two decoders give the same for related trees. -/
def Alike {α : Type} (R : δ → ε → Prop) (f : δ → Option α) (g : ε → Option α) : Prop :=
  ∀ ⦃d : δ⦄ ⦃e : ε⦄, R d e → f d = g e

theorem bind_eq_of_rel {α β γ : Type} {S : α → β → Prop} {x : Option α} {y : Option β}
    {f : α → Option γ} {g : β → Option γ} (h : Option.Rel S x y)
    (hfg : ∀ a b, S a b → f a = g b) : x.bind f = y.bind g := by
  cases h with
  | some hab => exact hfg _ _ hab
  | none => rfl

theorem mapM_eq_of_forall₂ {α β γ : Type} {S : α → β → Prop} {l : List α} {m : List β}
    {f : α → Option γ} {g : β → Option γ} (h : List.Forall₂ S l m)
    (hfg : ∀ a b, S a b → f a = g b) : l.mapM f = m.mapM g := by
  induction h with
  | nil => rfl
  | cons hab _ ih => rw [List.mapM_cons, List.mapM_cons, hfg _ _ hab, ih]

theorem Named.lookup {R : δ → ε → Prop} {l : List (String × δ)} {m : List (String × ε)}
    (h : Named R l m) (name : String) : Option.Rel R (l.lookup name) (m.lookup name) := by
  induction h with
  | nil => exact .none
  | cons hxy _ ih =>
    rw [List.lookup_cons, List.lookup_cons, hxy.1]
    split
    · exact .some hxy.2
    · exact ih

/-! ## Records -/

/-- Two records have related fields. -/
def SameFields (R : δ → ε → Prop) (r : Record δ) (r' : Record ε) : Prop :=
  Named R r.fields r'.fields

variable {R : δ → ε → Prop} {α : Type} {f : δ → Option α} {g : ε → Option α}

namespace SameFields

variable {r : Record δ} {r' : Record ε}

theorem required (hr : SameFields R r r') (name : String) (hfg : Alike R f g) :
    r.required name f = r'.required name g :=
  bind_eq_of_rel (hr.lookup name) hfg

theorem orElse (hr : SameFields R r r') (name : String) (hfg : Alike R f g) (absent : α) :
    r.orElse name f absent = r'.orElse name g absent := by
  have hfield := hr.lookup name
  unfold Record.orElse
  generalize r.fields.lookup name = x, r'.fields.lookup name = y at hfield
  cases hfield with
  | some hde => exact hfg hde
  | none => rfl

variable [Source δ] [Source ε]

theorem optional (hr : SameFields R r r') (h : Agrees R) (name : String) (hfg : Alike R f g) :
    r.optional name f = r'.optional name g := by
  have hfield := hr.lookup name
  unfold Record.optional
  generalize r.fields.lookup name = x, r'.fields.lookup name = y at hfield
  cases hfield with
  | some hde => simp only [h.isNothing hde, hfg hde]
  | none => rfl

theorem nullable (hr : SameFields R r r') (h : Agrees R) (name : String) (hfg : Alike R f g) :
    r.nullable name f = r'.nullable name g := by
  have hfield := hr.lookup name
  unfold Record.nullable
  generalize r.fields.lookup name = x, r'.fields.lookup name = y at hfield
  cases hfield with
  | some hde => simp only [h.isNothing hde, hfg hde]
  | none => rfl

end SameFields

/-! ## Decoders -/

variable [Source δ] [Source ε]

theorem Agrees.list (h : Agrees R) (hfg : Alike R f g) : Alike R (list? f) (list? g) :=
  fun _ _ hde => bind_eq_of_rel (h.items hde) fun _ _ hitems => mapM_eq_of_forall₂ hitems hfg

theorem Agrees.dict (h : Agrees R) (hfg : Alike R f g) : Alike R (dict? f) (dict? g) := by
  intro d e hde
  refine bind_eq_of_rel (h.entries hde) fun _ _ hentries => congrArg (Option.map Dict.ofList) ?_
  refine mapM_eq_of_forall₂ hentries fun x y ⟨hname, hxy⟩ => ?_
  rw [hname, hfg hxy]

theorem Agrees.texts (h : Agrees R) : Alike R texts? texts? := h.list fun _ _ => h.text

theorem Agrees.textDict (h : Agrees R) : Alike R textDict? textDict? := h.dict fun _ _ => h.text

theorem Agrees.fieldMap (h : Agrees R) : Alike R FieldMap.decode? FieldMap.decode? :=
  h.dict fun _ _ hde => congrArg (Option.map Value.ofJson) (h.json hde)

theorem Agrees.ofRecord (h : Agrees R) (names : List String) {f : Record δ → Option α}
    {g : Record ε → Option α} (hfg : ∀ r r', SameFields R r r' → f r = g r') :
    Alike R (fun d => (Record.of? names d).bind f) fun e => (Record.of? names e).bind g := by
  intro d e hde
  simp only [Record.of?, Option.bind_map]
  exact bind_eq_of_rel (h.record hde names) fun _ _ hfields => hfg _ _ hfields

theorem Agrees.parentRef (h : Agrees R) : Alike R ParentRef.decode? ParentRef.decode? :=
  h.ofRecord _ fun r r' hr => by
    rw [hr.required "type" fun _ _ => h.text, hr.required "ref" fun _ _ => h.text]

theorem Agrees.declaration (h : Agrees R) : Alike R Declaration.decode? Declaration.decode? :=
  h.ofRecord _ fun r r' hr => by
    rw [hr.required "type" fun _ _ => h.text, hr.required "ref" fun _ _ => h.text,
      hr.required "name" fun _ _ => h.text, hr.optional h "id" fun _ _ => h.text,
      hr.optional h "namespace" fun _ _ => h.text, hr.optional h "protected" fun _ _ => h.bool,
      hr.nullable h "description" fun _ _ => h.text, hr.nullable h "labels" h.textDict,
      hr.optional h "parent" h.parentRef, hr.orElse "fields" h.fieldMap]

theorem Agrees.defaults (h : Agrees R) : Alike R Defaults.decode? Defaults.decode? :=
  h.ofRecord _ fun r r' hr => by
    rw [hr.optional h "namespace" fun _ _ => h.text, hr.orElse "namespaces" h.texts,
      hr.optional h "generator" fun _ _ => h.text]

theorem Agrees.desiredState (h : Agrees R) : Alike R DesiredState.decode? DesiredState.decode? :=
  h.ofRecord _ fun r r' hr => by
    rw [hr.orElse "defaults" h.defaults, hr.orElse "resources" (h.list h.declaration)]

theorem Agrees.resource (h : Agrees R) : Alike R Resource.decode? Resource.decode? :=
  h.ofRecord _ fun r r' hr => by
    rw [hr.required "id" fun _ _ => h.text, hr.required "type" fun _ _ => h.text,
      hr.required "name" fun _ _ => h.text, hr.orElse "labels" h.textDict,
      hr.orElse "fields" h.fieldMap]

theorem Agrees.snapshot (h : Agrees R) : Alike R Snapshot.decode? Snapshot.decode? :=
  h.ofRecord _ fun r r' hr => by
    rw [hr.optional h "configured_types" fun _ _ hde =>
        congrArg (Option.map StringSet.ofList) (h.texts hde),
      hr.orElse "resources" (h.list h.resource)]

end Source

/-! ## Drafts and what they mean -/

namespace Json

namespace Draft

/-- **A draft means a tree**, as far inside as a reader may look. -/
inductive Means : Nested Draft → Json → Prop
  | null (room : Nat) : Means ⟨.null, room⟩ .null
  | bool (b : Bool) (room : Nat) : Means ⟨.bool b, room⟩ (.bool b)
  | number {numeral : Numeral} {n : Number} (h : numeral.value? = some n) (room : Nat) :
      Means ⟨.number numeral, room⟩ (.number n)
  | string {pieces : List Piece} {s : String} (h : Piece.text? pieces = some s) (room : Nat) :
      Means ⟨.string pieces, room⟩ (.string s)
  | array {items : List Draft} {js : List Json} {room : Nat} (h : items? room items = some js) :
      Means ⟨.array items, room + 1⟩ (.array js)
  | object {members : List (List Piece × Draft)} {js : List (String × Json)} {room : Nat}
      (h : members? room members = some js) : Means ⟨.object members, room + 1⟩ (.object js)

theorem means_iff {d : Nested Draft} {j : Json} : Means d j ↔ d.tree.json? d.room = some j := by
  obtain ⟨tree, room⟩ := d
  constructor
  · intro h
    cases h with
    | null | bool => rfl
    | number h | string h => simp [json?, h]
    | array h | object h => simp [json?, h]
  · intro h
    cases tree with
    | null => exact Option.some.inj h ▸ .null room
    | bool b => exact Option.some.inj h ▸ .bool b room
    | number numeral =>
      obtain ⟨n, hn, rfl⟩ := Option.map_eq_some_iff.mp h
      exact .number hn room
    | string pieces =>
      obtain ⟨s, hs, rfl⟩ := Option.map_eq_some_iff.mp h
      exact .string hs room
    | array items =>
      cases room with
      | zero => exact absurd h nofun
      | succ room =>
        obtain ⟨js, hjs, rfl⟩ := Option.map_eq_some_iff.mp h
        exact .array hjs
    | object members =>
      cases room with
      | zero => exact absurd h nofun
      | succ room =>
        obtain ⟨js, hjs, rfl⟩ := Option.map_eq_some_iff.mp h
        exact .object hjs

/-- Members of an object stand under the texts of their keys and mean trees. -/
def MeanNamed (room : Nat) : List (String × Draft) → List (String × Json) → Prop :=
  List.Forall₂ fun x y => x.1 = y.1 ∧ Means ⟨x.2, room⟩ y.2

theorem forall₂_of_items? {room : Nat} {items : List Draft} {js : List Json}
    (h : items? room items = some js) :
    List.Forall₂ (fun t j => Means ⟨t, room⟩ j) items js := by
  induction items generalizing js with
  | nil => exact Option.some.inj h ▸ .nil
  | cons item rest ih =>
    unfold items? at h
    split at h
    · next hitem hrest =>
      obtain rfl := Option.some.inj h
      exact .cons (means_iff.mpr hitem) (ih hrest)
    · exact absurd h nofun

theorem exists_named_of_members? {room : Nat} {members : List (List Piece × Draft)}
    {js : List (String × Json)} (h : members? room members = some js) :
    ∃ l, named? members = some l ∧ MeanNamed room l js := by
  induction members generalizing js with
  | nil => exact ⟨[], rfl, Option.some.inj h ▸ .nil⟩
  | cons m rest ih =>
    unfold members? at h
    split at h
    · next key j js hkey hvalue hrest =>
      obtain rfl := Option.some.inj h
      obtain ⟨l, hl, hnamed⟩ := ih hrest
      have hhead : (Piece.text? m.1).map (fun key => (key, m.2)) = some (key, m.2) := by
        rw [hkey, Option.map_some]
      have htail : rest.mapM (fun m => (Piece.text? m.1).map fun key => (key, m.2)) = some l := hl
      refine ⟨(key, m.2) :: l, ?_, .cons ⟨rfl, means_iff.mpr hvalue⟩ hnamed⟩
      rw [named?, List.mapM_cons, hhead, htail]
      rfl
    · exact absurd h nofun

namespace MeanNamed

variable {room : Nat} {l : List (String × Draft)} {js : List (String × Json)}

theorem enterNamed (h : MeanNamed room l js) (tree : Draft) :
    Option.Rel (Source.Named Means) (Nested.enterNamed ⟨tree, room + 1⟩ l) (some js) :=
  .some (List.forall₂_map_left_iff.mpr h)

theorem filter (h : MeanNamed room l js) (names : List String) :
    MeanNamed room (l.filter fun m => names.contains m.1)
      (js.filter fun m => names.contains m.1) := by
  induction h with
  | nil => exact .nil
  | cons hxy _ ih =>
    rw [List.filter_cons, List.filter_cons, hxy.1]
    split
    · exact .cons hxy ih
    · exact ih

theorem distinctKeys_eq (h : MeanNamed room l js) : distinctKeys l = distinctKeys js := by
  have hkeys : l.map (·.1) = js.map (·.1) := map_eq_of_forall₂ h fun _ _ hxy => hxy.1
  rw [Bool.eq_iff_iff, distinctKeys_iff_nodup, distinctKeys_iff_nodup, hkeys]

end MeanNamed

/-- Fields in order stand under the same names in a draft and in what it means. -/
theorem meanNamed_zip {room : Nat} {items : List Draft} {js : List Json}
    (h : List.Forall₂ (fun t j => Means ⟨t, room⟩ j) items js) (names : List String) :
    MeanNamed room (names.zip items) (names.zip js) := by
  induction h generalizing names with
  | nil => rw [List.zip_nil_right, List.zip_nil_right]; exact .nil
  | cons hitem _ ih =>
    cases names with
    | nil => exact .nil
    | cons name names => exact .cons ⟨rfl, hitem⟩ (ih names)

/-- A record in a draft is a record in what it means. -/
theorem rel_record? {d : Nested Draft} {j : Json} (h : Means d j) (names : List String) :
    Option.Rel (Source.Named Means) (Source.record? names d) (Source.record? names j) := by
  cases h with
  | null | bool | number | string => exact .none
  | @array items js room h =>
    have hitems := forall₂_of_items? h
    have hread : Source.record? names (Nested.mk (.array items) (room + 1))
        = (if items.length ≤ names.length then some (names.zip items) else none).bind
          (Nested.enterNamed ⟨.array items, room + 1⟩) := rfl
    have htree : Source.record? names (Json.array js)
        = if js.length ≤ names.length then some (names.zip js) else none := rfl
    rw [hread, htree, hitems.length_eq]
    split
    · exact (meanNamed_zip hitems names).enterNamed (.array items)
    · exact .none
  | @object members js room h =>
    obtain ⟨l, hl, hnamed⟩ := exists_named_of_members? h
    have hread : Source.record? names (Nested.mk (.object members) (room + 1))
        = (((named? members).map fun l => l.filter fun m => names.contains m.1).filter
          distinctKeys).bind (Nested.enterNamed ⟨.object members, room + 1⟩) := rfl
    have htree : Source.record? names (Json.object js)
        = if distinctKeys (js.filter fun m => names.contains m.1)
          then some (js.filter fun m => names.contains m.1) else none := rfl
    have hknown := hnamed.filter names
    rw [hread, htree, hl, Option.map_some, Option.filter_some, hknown.distinctKeys_eq]
    split
    · exact hknown.enterNamed (.object members)
    · exact .none

/-- **A draft and what it means look the same.** -/
theorem agrees_means : Source.Agrees Means where
  isNothing h := by cases h <;> rfl
  text h := by
    cases h with
    | string h => exact h
    | _ => rfl
  bool h := by cases h <;> rfl
  items h := by
    cases h with
    | array h => exact .some (List.forall₂_map_left_iff.mpr (forall₂_of_items? h))
    | _ => exact .none
  entries h := by
    cases h with
    | @object members js room h =>
      obtain ⟨l, hl, hnamed⟩ := exists_named_of_members? h
      have hread : Source.entries? (Nested.mk (.object members) (room + 1))
          = (named? members).bind (Nested.enterNamed ⟨.object members, room + 1⟩) := rfl
      rw [hread, hl]
      exact hnamed.enterNamed (.object members)
    | _ => exact .none
  record := rel_record?
  json h := means_iff.mp h

end Draft

/-- **A text that holds a tree is decoded as that tree.** -/
theorem decodeText?_eq {α : Type} {f : Nested Draft → Option α} {g : Json → Option α}
    (hfg : Source.Alike Draft.Means f g) {text : String} {j : Json} (h : read? text = some j) :
    decodeText? f text = g j := by
  obtain ⟨d, hd, hj⟩ := Option.bind_eq_some_iff.mp h
  rw [decodeText?, hd, Option.bind_some]
  exact hfg (Draft.means_iff.mpr hj)

end Json

end Reconcile
