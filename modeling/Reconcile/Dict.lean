/-!
# Dict — finite maps from texts, in the order of their keys

`Entries` holds the operations on plain lists of pairs, which is how maps nested inside a recursive
type are written; `Dict` bundles such a list with the proof that its keys ascend.  What a map holds
is read off by `get?`: `get?_insert_self` and `get?_insert_of_ne` say what an insertion does to it.
-/

namespace Reconcile

/-- Distinct texts are ordered one way or the other. -/
theorem eq_of_not_lt_of_not_lt {a b : String} (h : ¬a < b) (h' : ¬b < a) : a = b :=
  String.le_antisymm (String.not_lt.1 h') (String.not_lt.1 h)

namespace Entries

variable {α β : Type}

/-- The keys come in strictly ascending order. -/
def Ascending (l : List (String × α)) : Prop := l.Pairwise fun a b => a.1 < b.1

/-- The value a key has in a list of pairs: that of its first pair. -/
def get? (key : String) : List (String × α) → Option α
  | [] => none
  | e :: rest => if e.1 = key then some e.2 else get? key rest

/-- Puts a pair at its place, in place of a pair with the same key. -/
def insert (key : String) (value : α) : List (String × α) → List (String × α)
  | [] => [(key, value)]
  | e :: rest =>
    if key < e.1 then (key, value) :: e :: rest
    else if e.1 < key then e :: insert key value rest
    else (key, value) :: rest

/-- The map that a list of pairs describes when a later pair overrides an earlier one. -/
def ofList (l : List (String × α)) : List (String × α) :=
  l.foldl (fun m e => insert e.1 e.2 m) []

theorem mem_of_mem_insert {key : String} {value : α} {e : String × α} {l : List (String × α)}
    (h : e ∈ insert key value l) : e = (key, value) ∨ e ∈ l := by
  induction l with
  | nil => simpa [insert] using h
  | cons d rest ih =>
    unfold insert at h
    split at h
    · simpa using h
    · split at h
      · rcases List.mem_cons.1 h with rfl | h
        · simp
        · rcases ih h with rfl | h <;> simp_all
      · rcases List.mem_cons.1 h with rfl | h <;> simp_all

theorem ascending_insert {key : String} {value : α} {l : List (String × α)} (h : Ascending l) :
    Ascending (insert key value l) := by
  induction l with
  | nil => simp [insert, Ascending]
  | cons d rest ih =>
    have hd := List.pairwise_cons.1 h
    unfold insert
    split
    · next hlt =>
      refine List.pairwise_cons.2 ⟨fun e he => ?_, h⟩
      rcases List.mem_cons.1 he with rfl | he
      · exact hlt
      · exact String.lt_trans hlt (hd.1 e he)
    · split
      · next hlt =>
        refine List.pairwise_cons.2 ⟨fun e he => ?_, ih hd.2⟩
        rcases mem_of_mem_insert he with rfl | he
        · exact hlt
        · exact hd.1 e he
      · next h1 h2 =>
        have hk : key = d.1 := eq_of_not_lt_of_not_lt h1 h2
        exact List.pairwise_cons.2 ⟨fun e he => hk ▸ hd.1 e he, hd.2⟩

theorem ascending_foldl {l m : List (String × α)} (h : Ascending m) :
    Ascending (l.foldl (fun m e => insert e.1 e.2 m) m) := by
  induction l generalizing m with
  | nil => exact h
  | cons e rest ih => exact ih (ascending_insert h)

theorem ascending_ofList (l : List (String × α)) : Ascending (ofList l) :=
  ascending_foldl List.Pairwise.nil

@[simp] theorem get?_insert_self (key : String) (value : α) (l : List (String × α)) :
    get? key (insert key value l) = some value := by
  induction l with
  | nil => simp [insert, get?]
  | cons d rest ih =>
    unfold insert
    split
    · simp [get?]
    · split
      · next hlt =>
        have hne : d.1 ≠ key := fun h => String.lt_irrefl _ (h ▸ hlt)
        simp [get?, hne, ih]
      · simp [get?]

theorem get?_insert_of_ne {key other : String} (value : α) (hne : other ≠ key)
    (l : List (String × α)) : get? other (insert key value l) = get? other l := by
  induction l with
  | nil => simp [insert, get?, hne.symm]
  | cons d rest ih =>
    unfold insert
    split
    · simp [get?, hne.symm]
    · split
      · simp [get?, ih]
      · next h1 h2 =>
        have hk : key = d.1 := eq_of_not_lt_of_not_lt h1 h2
        simp [get?, ← hk, hne.symm]

end Entries

/-- A finite map from texts: pairs in the order of their keys. -/
structure Dict (α : Type) where
  entries : List (String × α)
  ascending : Entries.Ascending entries

namespace Dict

variable {α β : Type}

theorem ext_entries {d e : Dict α} (h : d.entries = e.entries) : d = e := by
  cases d; cases e; cases h; rfl

instance [BEq α] : BEq (Dict α) := ⟨fun d e => d.entries == e.entries⟩

instance [DecidableEq α] : DecidableEq (Dict α) := fun d e =>
  if h : d.entries = e.entries then isTrue (ext_entries h)
  else isFalse fun hde => h (hde ▸ rfl)

/-- The map without entries. -/
def empty : Dict α := ⟨[], List.Pairwise.nil⟩

instance : EmptyCollection (Dict α) := ⟨empty⟩

instance : Inhabited (Dict α) := ⟨empty⟩

/-- The value of a key. -/
def get? (d : Dict α) (key : String) : Option α := Entries.get? key d.entries

/-- A key has a value. -/
def contains (d : Dict α) (key : String) : Bool := (d.get? key).isSome

/-- The map with one key set to a value. -/
def insert (d : Dict α) (key : String) (value : α) : Dict α :=
  ⟨Entries.insert key value d.entries, Entries.ascending_insert d.ascending⟩

/-- The map that a list of pairs describes; a later pair overrides an earlier one. -/
def ofList (l : List (String × α)) : Dict α := ⟨Entries.ofList l, Entries.ascending_ofList l⟩

/-- The map with one entry. -/
def singleton (key : String) (value : α) : Dict α := empty.insert key value

/-- The keys, ascending. -/
def keys (d : Dict α) : List String := d.entries.map (·.1)

/-- The values in the order of their keys. -/
def values (d : Dict α) : List α := d.entries.map (·.2)

/-- The number of keys. -/
def size (d : Dict α) : Nat := d.entries.length

/-- No key has a value. -/
def isEmpty (d : Dict α) : Bool := d.entries.isEmpty

/-- The entries that pass a test. -/
def filter (p : String → α → Bool) (d : Dict α) : Dict α :=
  ⟨d.entries.filter fun e => p e.1 e.2, d.ascending.filter _⟩

/-- The same keys with other values. -/
def map (f : α → β) (d : Dict α) : Dict β :=
  ⟨d.entries.map fun e => (e.1, f e.2), by
    exact List.pairwise_map.2 (d.ascending.imp fun h => h)⟩

/-- Both maps together; where both have a key the second one counts. -/
def union (d e : Dict α) : Dict α := e.entries.foldl (fun m x => m.insert x.1 x.2) d

@[simp] theorem get?_insert_self (d : Dict α) (key : String) (value : α) :
    (d.insert key value).get? key = some value := Entries.get?_insert_self ..

theorem get?_insert_of_ne (d : Dict α) {key other : String} (value : α) (h : other ≠ key) :
    (d.insert key value).get? other = d.get? other := Entries.get?_insert_of_ne _ h _

@[simp] theorem get?_empty (key : String) : (empty : Dict α).get? key = none := rfl

end Dict

end Reconcile
