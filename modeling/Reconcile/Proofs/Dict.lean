import Mathlib.Data.List.Sort
import Reconcile.Dict

/-!
# Proofs/Dict — a map is what its look-ups say

The keys of a map ascend, so a key has the value of the one entry with it (`Dict.mem_entries_iff`),
and a map is what its own entries describe (`Dict.ofList_entries`) and what its look-ups say
(`Dict.ext_get?`).
-/

namespace Reconcile

namespace Entries

variable {α : Type} {key : String} {value : α} {l : List (String × α)}

theorem mem_of_get? (h : get? key l = some value) : (key, value) ∈ l := by
  induction l with
  | nil => simp [get?] at h
  | cons e rest ih =>
    unfold get? at h
    split at h
    · next hkey =>
      obtain rfl := hkey
      obtain rfl := Option.some.inj h
      exact List.mem_cons_self
    · exact List.mem_cons_of_mem _ (ih h)

theorem get?_of_mem (hasc : Ascending l) (h : (key, value) ∈ l) : get? key l = some value := by
  induction l with
  | nil => exact absurd h List.not_mem_nil
  | cons e rest ih =>
    obtain ⟨hlt, hrest⟩ := List.pairwise_cons.mp hasc
    unfold get?
    rcases List.mem_cons.mp h with rfl | hmem
    · simp
    · have hne : e.1 ≠ key := fun he => String.lt_irrefl _ (he ▸ hlt _ hmem)
      rw [if_neg hne]
      exact ih hrest hmem

theorem mem_of_mem_foldl {m : List (String × α)} {e : String × α}
    (h : e ∈ l.foldl (fun m e => insert e.1 e.2 m) m) : e ∈ m ∨ e ∈ l := by
  induction l generalizing m with
  | nil => exact Or.inl h
  | cons d rest ih =>
    rcases ih h with hinsert | hrest
    · rcases mem_of_mem_insert hinsert with rfl | hm
      · exact Or.inr List.mem_cons_self
      · exact Or.inl hm
    · exact Or.inr (List.mem_cons_of_mem _ hrest)

theorem mem_of_mem_ofList {e : String × α} (h : e ∈ ofList l) : e ∈ l :=
  (mem_of_mem_foldl h).resolve_left List.not_mem_nil

theorem insert_of_forall_lt {m : List (String × α)} (h : ∀ e ∈ m, e.1 < key) :
    insert key value m = m ++ [(key, value)] := by
  induction m with
  | nil => rfl
  | cons d rest ih =>
    have hd : d.1 < key := h d List.mem_cons_self
    rw [insert, if_neg (String.lt_asymm hd), if_pos hd,
      ih fun e he => h e (List.mem_cons_of_mem _ he), List.cons_append]

theorem foldl_insert_of_ascending {m : List (String × α)} (h : Ascending (m ++ l)) :
    l.foldl (fun m e => insert e.1 e.2 m) m = m ++ l := by
  induction l generalizing m with
  | nil => exact (List.append_nil m).symm
  | cons d rest ih =>
    have hlt : ∀ e ∈ m, e.1 < d.1 := fun e he =>
      (List.pairwise_append.mp h).2.2 e he d List.mem_cons_self
    rw [List.append_cons] at h
    rw [List.foldl_cons, insert_of_forall_lt hlt, ih h, List.append_assoc, List.singleton_append]

/-- **A list in the order of its keys describes itself.** -/
theorem ofList_of_ascending (h : Ascending l) : ofList l = l :=
  foldl_insert_of_ascending (m := []) h

/-- **A key has one entry**, and those before and behind it have other keys. -/
theorem exists_split_of_get? (hasc : Ascending l) (h : get? key l = some value) :
    ∃ before behind, l = before ++ (key, value) :: behind
      ∧ (∀ e ∈ before, e.1 ≠ key) ∧ ∀ e ∈ behind, e.1 ≠ key := by
  obtain ⟨before, behind, rfl⟩ := List.append_of_mem (mem_of_get? h)
  obtain ⟨-, hbehind, hbefore⟩ := List.pairwise_append.mp hasc
  refine ⟨before, behind, rfl, fun e he => ?_, fun e he => ?_⟩
  · exact fun hkey => String.lt_irrefl _ (hkey ▸ hbefore e he _ List.mem_cons_self)
  · exact fun hkey => String.lt_irrefl _ (hkey ▸ (List.pairwise_cons.mp hbehind).1 e he)

end Entries

namespace Dict

variable {α : Type} {d : Dict α} {key : String} {value : α}

/-- **The entries of a map are its look-ups.** -/
theorem mem_entries_iff : (key, value) ∈ d.entries ↔ d.get? key = some value :=
  ⟨Entries.get?_of_mem d.ascending, Entries.mem_of_get?⟩

@[simp] theorem ofList_entries (d : Dict α) : ofList d.entries = d :=
  ext_entries (Entries.ofList_of_ascending d.ascending)

@[simp] theorem get?_emptyCollection (key : String) : (∅ : Dict α).get? key = none := rfl

theorem singleton_ne_empty (key : String) (value : α) : singleton key value ≠ ∅ := fun h =>
  List.cons_ne_nil _ _ (congrArg entries h)

theorem singleton_injective (key : String) : Function.Injective (singleton (α := α) key) :=
  fun _ _ h => (Prod.mk.inj (List.cons.inj (congrArg entries h)).1).2

@[simp] theorem map_id (d : Dict α) : d.map id = d := ext_entries (List.map_id d.entries)

theorem get?_map {β : Type} (f : α → β) (d : Dict α) (key : String) :
    (d.map f).get? key = (d.get? key).map f := by
  refine Option.ext fun w => ?_
  rw [← mem_entries_iff, Option.map_eq_some_iff, Dict.map, List.mem_map]
  constructor
  · rintro ⟨⟨k, v⟩, hmem, heq⟩
    obtain ⟨rfl, rfl⟩ := Prod.mk.inj heq
    exact ⟨v, mem_entries_iff.mp hmem, rfl⟩
  · rintro ⟨v, hget, rfl⟩
    exact ⟨(key, v), mem_entries_iff.mpr hget, rfl⟩

theorem map_eq_self_iff {f : α → α} : d.map f = d ↔ ∀ e ∈ d.entries, f e.2 = e.2 := by
  have hentries : d.map f = d ↔ d.entries.map (fun e => (e.1, f e.2)) = d.entries.map id :=
    ⟨fun h => (congrArg Dict.entries h).trans (List.map_id _).symm,
      fun h => ext_entries (h.trans (List.map_id _))⟩
  rw [hentries, List.map_inj_left]
  simp [Prod.ext_iff]

theorem get?_foldl_insert_of_forall_ne {l : List (String × α)} (h : ∀ e ∈ l, e.1 ≠ key) :
    (l.foldl (fun m e => m.insert e.1 e.2) d).get? key = d.get? key := by
  induction l generalizing d with
  | nil => rfl
  | cons e rest ih =>
    have hne : key ≠ e.1 := (h e List.mem_cons_self).symm
    rw [List.foldl_cons, ih fun e he => h e (List.mem_cons_of_mem _ he), get?_insert_of_ne _ _ hne]

/-- **Maps with the same look-ups are the same.** -/
theorem ext_get? {e : Dict α} (h : ∀ key, d.get? key = e.get? key) : d = e := by
  have hirrefl : Std.Irrefl (fun a b : String × α => a.1 < b.1) := ⟨fun a => String.lt_irrefl a.1⟩
  have hantisymm : Std.Antisymm (fun a b : String × α => a.1 < b.1) :=
    ⟨fun a b hab hba => absurd hba (String.lt_asymm hab)⟩
  refine ext_entries (d.ascending.eq_of_mem_iff e.ascending fun ⟨key, value⟩ => ?_)
  rw [mem_entries_iff, mem_entries_iff, h key]

/-- What is put into a map decides all look-ups of its keys, however the map was before. -/
theorem foldl_insert_congr {e : Dict α} {l : List (String × α)}
    (h : ∀ key, (∀ x ∈ l, x.1 ≠ key) → d.get? key = e.get? key) :
    l.foldl (fun m x => m.insert x.1 x.2) d = l.foldl (fun m x => m.insert x.1 x.2) e := by
  induction l generalizing d e with
  | nil => exact ext_get? fun key => h key (by simp)
  | cons x rest ih =>
    refine ih fun key hkey => ?_
    by_cases hx : key = x.1
    · rw [hx, get?_insert_self, get?_insert_self]
    · rw [get?_insert_of_ne _ _ hx, get?_insert_of_ne _ _ hx]
      exact h key (List.forall_mem_cons.mpr ⟨Ne.symm hx, hkey⟩)

/-- **Putting the same into a map again changes nothing.** -/
theorem foldl_insert_foldl_insert (l : List (String × α)) (d : Dict α) :
    l.foldl (fun m x => m.insert x.1 x.2) (l.foldl (fun m x => m.insert x.1 x.2) d)
      = l.foldl (fun m x => m.insert x.1 x.2) d :=
  foldl_insert_congr fun _ hkey => get?_foldl_insert_of_forall_ne hkey

theorem mem_of_mem_insert {e : String × α}
    (h : e ∈ (d.insert key value).entries) : e = (key, value) ∨ e ∈ d.entries :=
  Entries.mem_of_mem_insert h

theorem mem_of_mem_foldl_insert {l : List (String × α)} {e : String × α}
    (h : e ∈ (l.foldl (fun m x => m.insert x.1 x.2) d).entries) : e ∈ d.entries ∨ e ∈ l := by
  induction l generalizing d with
  | nil => exact .inl h
  | cons x rest ih =>
    rcases ih h with hinsert | hrest
    · rcases mem_of_mem_insert hinsert with rfl | hd
      · exact .inr List.mem_cons_self
      · exact .inl hd
    · exact .inr (List.mem_cons_of_mem _ hrest)

theorem mem_of_mem_union {e : Dict α} {x : String × α} (h : x ∈ (d.union e).entries) :
    x ∈ d.entries ∨ x ∈ e.entries := mem_of_mem_foldl_insert h

theorem eq_empty_of_isEmpty (h : d.isEmpty = true) : d = ∅ :=
  ext_entries (List.isEmpty_iff.mp h)

theorem isEmpty_iff : d.isEmpty = true ↔ d = ∅ :=
  ⟨eq_empty_of_isEmpty, fun h => h ▸ rfl⟩

/-- A map without look-ups is empty. -/
theorem eq_empty_iff : d = ∅ ↔ ∀ key, d.get? key = none :=
  ⟨fun h _ => h ▸ rfl, fun h => ext_get? h⟩

instance [BEq α] [LawfulBEq α] : LawfulBEq (Dict α) where
  rfl := beq_self_eq_true (α := List (String × α)) _
  eq_of_beq h := ext_entries (eq_of_beq (α := List (String × α)) h)

/-! ## Look-ups in what is made of maps -/

theorem get?_insert (d : Dict α) (key : String) (value : α) (other : String) :
    (d.insert key value).get? other = if other = key then some value else d.get? other := by
  split
  · next hkey => rw [hkey, get?_insert_self]
  · next hkey => exact get?_insert_of_ne d value hkey

/-- **In both maps together the second one counts.** -/
theorem get?_union (d e : Dict α) (key : String) :
    (d.union e).get? key = (e.get? key).or (d.get? key) := by
  rcases hkey : e.get? key with _ | value
  · have hother : ∀ x ∈ e.entries, x.1 ≠ key := fun x hx heq => by
      rw [← heq, mem_entries_iff.mp hx] at hkey
      exact absurd hkey (by simp)
    exact get?_foldl_insert_of_forall_ne hother
  · obtain ⟨before, behind, hentries, -, hbehind⟩ :=
      Entries.exists_split_of_get? e.ascending hkey
    rw [union, hentries, List.foldl_append, List.foldl_cons,
      get?_foldl_insert_of_forall_ne hbehind, get?_insert_self]
    rfl

/-- What a filter keeps of a key is what passes. -/
theorem get?_filter (p : String → α → Bool) (d : Dict α) (key : String) :
    (d.filter p).get? key = (d.get? key).filter (p key) := by
  refine Option.ext fun value => ?_
  rw [← mem_entries_iff, Option.filter_eq_some_iff, ← mem_entries_iff]
  exact List.mem_filter

end Dict

end Reconcile
