import Reconcile.Proofs.Dict
import Reconcile.Proofs.Lists
import Reconcile.Source

/-!
# Proofs/Documents/Records — records are read as they are written

A written record is an object that holds each of its fields at most once, and leaves out those
without a value.  Main facts: `Record.of?_ofParts` — the reader finds all the members of such an
object — and one lemma for each way to ask for a field, among which `Record.orElse_eq` says that a
field left out when it is empty comes back as the empty value.
-/

namespace Reconcile

/-- A part that is read is handed on to what reads the others. -/
theorem bind_of_eq_some {α β : Type} {x : Option α} {a : α} (h : x = some a) (f : α → Option β) :
    (x >>= f) = f a := by
  rw [h]
  rfl

/-! ## Lists and maps, item by item -/

namespace Source

variable {δ α : Type} [Source δ]

theorem exists_of_mem_of_list? {decode : δ → Option α} {d : δ} {l : List α}
    (h : list? decode d = some l) {a : α} (ha : a ∈ l) : ∃ e, decode e = some a := by
  obtain ⟨items, -, hitems⟩ := Option.bind_eq_some_iff.mp h
  obtain ⟨e, -, he⟩ := exists_of_mem_of_mapM hitems ha
  exact ⟨e, he⟩

theorem exists_of_mem_of_dict? {decode : δ → Option α} {d : δ} {m : Dict α}
    (h : dict? decode d = some m) {x : String × α} (hx : x ∈ m.entries) :
    ∃ e, decode e = some x.2 := by
  obtain ⟨entries, -, hentries⟩ := Option.bind_eq_some_iff.mp h
  obtain ⟨l, hl, rfl⟩ := Option.map_eq_some_iff.mp hentries
  obtain ⟨e, -, he⟩ := exists_of_mem_of_mapM hl (Entries.mem_of_mem_ofList hx)
  obtain ⟨v, hv, rfl⟩ := Option.map_eq_some_iff.mp he
  exact ⟨e.2, hv⟩

end Source

namespace Json

theorem list?_array_map {α β : Type} {write : α → Json} {decode : Json → Option β} {f : α → β}
    {l : List α} (h : ∀ a ∈ l, decode (write a) = some (f a)) :
    Source.list? decode (.array (l.map write)) = some (l.map f) :=
  mapM_map_of_forall h

theorem list?_array {α : Type} {write : α → Json} {decode : Json → Option α} {l : List α}
    (h : ∀ a ∈ l, decode (write a) = some a) :
    Source.list? decode (.array (l.map write)) = some l :=
  mapM_map_of_left_inverse h

theorem texts?_strings (l : List String) : Source.texts? (strings l) = some l :=
  list?_array fun _ _ => rfl

theorem dict?_object_map {α β : Type} {write : α → Json} {decode : Json → Option β} {f : α → β}
    {d : Dict α} (h : ∀ e ∈ d.entries, decode (write e.2) = some (f e.2)) :
    Source.dict? decode (.object (d.map write).entries) = some (d.map f) := by
  have hentries : (d.map write).entries.mapM (fun e => (decode e.2).map fun v => (e.1, v))
      = some (d.map f).entries := by
    refine mapM_map_of_forall fun e he => ?_
    rw [h e he]
    rfl
  calc Source.dict? decode (.object (d.map write).entries)
      = ((d.map write).entries.mapM fun e => (decode e.2).map fun v => (e.1, v)).map Dict.ofList :=
        rfl
    _ = some (d.map f) := by rw [hentries, Option.map_some, Dict.ofList_entries]

theorem dict?_object {α : Type} {write : α → Json} {decode : Json → Option α} {d : Dict α}
    (h : ∀ e ∈ d.entries, decode (write e.2) = some e.2) :
    Source.dict? decode (.object (d.map write).entries) = some d := by
  rw [dict?_object_map (f := id) h, Dict.map_id]

theorem text?_string (s : String) : Source.text? (string s) = some s := rfl

theorem natural?_nat (n : Nat) : Source.natural? (nat n) = some n := by
  simp [Source.natural?, nat, Number.natural?]

/-! ## Written records -/

/-- A part of a record holds the field of a name at most. -/
def IsPart (name : String) (part : List (String × Json)) : Prop :=
  List.Sublist (part.map (·.1)) [name]

@[simp] theorem isPart_field (name : String) (value : Json) : IsPart name (field name value) :=
  List.Sublist.refl _

@[simp] theorem isPart_fieldOf? (name : String) (value : Option Json) :
    IsPart name (fieldOf? name value) := by
  cases value with
  | none => exact List.nil_sublist _
  | some value => exact List.Sublist.refl _

@[simp] theorem isPart_fieldUnless (empty : Bool) (name : String) (value : Json) :
    IsPart name (fieldUnless empty name value) := by
  cases empty with
  | false => exact List.Sublist.refl _
  | true => exact List.nil_sublist _

@[simp] theorem isPart_textUnlessEmpty (name value : String) :
    IsPart name (textUnlessEmpty name value) := isPart_fieldUnless ..

@[simp] theorem lookup_field (key name : String) (value : Json) :
    (field name value).lookup key = if key == name then some value else none := by
  rw [field, List.lookup_cons, List.lookup_nil]
  split <;> simp_all

@[simp] theorem lookup_fieldOf? (key name : String) (value : Option Json) :
    (fieldOf? name value).lookup key = if key == name then value else none := by
  cases value with
  | none => simp [fieldOf?]
  | some value => exact lookup_field key name value

@[simp] theorem lookup_fieldUnless (key : String) (empty : Bool) (name : String) (value : Json) :
    (fieldUnless empty name value).lookup key
      = if key == name then (if empty then none else some value) else none := by
  cases empty with
  | false => exact lookup_field key name value
  | true => simp [fieldUnless]

@[simp] theorem lookup_textUnlessEmpty (key name value : String) :
    (textUnlessEmpty name value).lookup key
      = if key == name then (if value.isEmpty then none else some (.string value)) else none :=
  lookup_fieldUnless ..

theorem keys_flatten_sublist {names : List String} {parts : List (List (String × Json))}
    (h : List.Forall₂ IsPart names parts) :
    List.Sublist (parts.flatten.map (·.1)) names := by
  induction h with
  | nil => exact List.Sublist.refl _
  | cons hpart _ ih =>
    rw [List.flatten_cons, List.map_append]
    exact hpart.append ih

end Json

theorem distinctKeys_iff_nodup {α : Type} {l : List (String × α)} :
    distinctKeys l = true ↔ (l.map (·.1)).Nodup := by
  induction l with
  | nil => simp [distinctKeys]
  | cons e rest ih =>
    have hfresh : (!rest.any fun x => x.1 == e.1) = true ↔ e.1 ∉ rest.map (·.1) := by
      rw [Bool.not_eq_true', List.any_eq_false, List.mem_map]
      simp only [beq_iff_eq, not_exists, not_and]
    rw [distinctKeys, Bool.and_eq_true, hfresh, ih, List.map_cons, List.nodup_cons]

namespace Record

/-- The reader of a record finds all the members of an object that holds no field twice and none
that the reader does not know. -/
theorem of?_object {names : List String} {members : List (String × Json)}
    (hsub : List.Sublist (members.map (·.1)) names) (hnames : names.Nodup) :
    Record.of? names (Json.object members) = some ⟨members⟩ := by
  have hknown : (members.filter fun m => names.contains m.1) = members := by
    refine List.filter_eq_self.mpr fun m hm => ?_
    exact List.contains_iff_mem.mpr (hsub.subset (List.mem_map_of_mem hm))
  have hrecord : Json.recordFields? names (Json.object members) = some members := by
    rw [Json.recordFields?, hknown, if_pos (distinctKeys_iff_nodup.mpr (hnames.sublist hsub))]
  exact congrArg (Option.map Record.mk) hrecord

/-- **The reader of a record finds all the members of a written one.** -/
theorem of?_ofParts {names : List String} {parts : List (List (String × Json))}
    (hparts : List.Forall₂ Json.IsPart names parts) (hnames : names.Nodup) :
    ∃ r : Record Json, Record.of? names (Json.ofParts parts) = some r
      ∧ ∀ key, r.fields.lookup key = parts.flatten.lookup key :=
  ⟨⟨parts.flatten⟩, of?_object (Json.keys_flatten_sublist hparts) hnames, fun _ => rfl⟩

variable {α : Type} {r : Record Json} {name : String} {decode : Json → Option α}

theorem required_eq (value : Json) (h : r.fields.lookup name = some value) :
    r.required name decode = decode value := by
  rw [required, h, Option.bind_some]

/-- A field that is left out when it is empty comes back as the empty value. -/
theorem orElse_eq (value : Json) (empty : Bool) {a absent : α}
    (h : r.fields.lookup name = if empty then none else some value) (hread : decode value = some a)
    (hempty : empty = true → a = absent) : r.orElse name decode absent = some a := by
  rw [orElse, h]
  cases empty with
  | false => exact hread
  | true => rw [hempty rfl]; rfl

theorem orElse_of_there {value : Json} {a absent : α} (h : r.fields.lookup name = some value)
    (hread : decode value = some a) : r.orElse name decode absent = some a := by
  rw [orElse, h]
  exact hread

theorem orElse_text {s : String}
    (h : r.fields.lookup name = if s.isEmpty then none else some (.string s)) :
    r.orElse name Source.text? "" = some s :=
  orElse_eq (.string s) s.isEmpty h rfl String.isEmpty_iff.mp

theorem orElse_list (write : α → Json) {l : List α}
    (h : r.fields.lookup name = if l.isEmpty then none else some (.array (l.map write)))
    (hread : ∀ a ∈ l, decode (write a) = some a) :
    r.orElse name (Source.list? decode) [] = some l :=
  orElse_eq _ _ h (Json.list?_array hread) List.isEmpty_iff.mp

theorem orElse_texts {l : List String}
    (h : r.fields.lookup name = if l.isEmpty then none else some (Json.strings l)) :
    r.orElse name Source.texts? [] = some l :=
  orElse_list Json.string h fun _ _ => rfl

theorem orElse_dict_map {β : Type} (write : β → Json) {f : β → α} {d : Dict β}
    (h : r.fields.lookup name = if d.isEmpty then none else some (.object (d.map write).entries))
    (hread : ∀ e ∈ d.entries, decode (write e.2) = some (f e.2)) :
    r.orElse name (Source.dict? decode) ∅ = some (d.map f) :=
  orElse_eq _ _ h (Json.dict?_object_map hread) fun hempty => by
    rw [Dict.eq_empty_of_isEmpty hempty]
    rfl

theorem orElse_dict (write : α → Json) {d : Dict α}
    (h : r.fields.lookup name = if d.isEmpty then none else some (.object (d.map write).entries))
    (hread : ∀ e ∈ d.entries, decode (write e.2) = some e.2) :
    r.orElse name (Source.dict? decode) ∅ = some d := by
  rw [orElse_dict_map write (f := id) h hread, Dict.map_id]

theorem orElse_textDict {d : Dict String}
    (h : r.fields.lookup name = if d.isEmpty then none else some (Json.ofTextDict d)) :
    r.orElse name Source.textDict? ∅ = some d :=
  orElse_dict Json.string h fun _ _ => rfl

/-- An optional field comes back as none or some, as it was, unless it is written as nothing. -/
theorem optional_eq (write : α → Json) {x : Option α} (h : r.fields.lookup name = x.map write)
    (hread : ∀ a, decode (write a) = some a) (hthere : ∀ a, Source.isNothing (write a) = false) :
    r.optional name decode = some x := by
  rw [optional, h]
  cases x with
  | none => rfl
  | some a => simp [hread a, hthere a]

/-! ## Where the parts of what was read come from -/

variable {δ : Type} [Source δ] {r : Record δ} {name : String} {decode : δ → Option α}

theorem exists_of_mem_of_orElse_list {l : List α}
    (h : r.orElse name (Source.list? decode) [] = some l) {a : α} (ha : a ∈ l) :
    ∃ e, decode e = some a := by
  unfold orElse at h
  split at h
  · exact Source.exists_of_mem_of_list? h ha
  · obtain rfl := Option.some.inj h
    exact absurd ha List.not_mem_nil

theorem exists_of_mem_of_orElse_dict {d : Dict α}
    (h : r.orElse name (Source.dict? decode) ∅ = some d) {x : String × α} (hx : x ∈ d.entries) :
    ∃ e, decode e = some x.2 := by
  unfold orElse at h
  split at h
  · exact Source.exists_of_mem_of_dict? h hx
  · obtain rfl := Option.some.inj h
    exact absurd hx List.not_mem_nil

end Record

end Reconcile
