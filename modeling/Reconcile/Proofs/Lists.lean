import Mathlib.Data.List.Forall2
import Mathlib.Data.List.Sort
import Mathlib.GroupTheory.GroupAction.MultipleTransitivity

/-!
# Proofs/Lists — look-ups in lists, and lists that are related member by member

The first member that fails a test (`FirstFailing`), what a look-up finds, what `List.Forall₂` says
about the members at one place, in both directions, when lists are the same, and what reading a list
item by item gives.
-/

namespace Reconcile

/-! ## The first member that fails -/

section FirstFailing

variable {α : Type} {ok : α → Prop}

/-- **The first member of a list that fails a test**: those in front pass. -/
def FirstFailing (ok : α → Prop) (l : List α) (a : α) : Prop :=
  ∃ front rest, l = front ++ a :: rest ∧ (∀ b ∈ front, ok b) ∧ ¬ ok a

theorem not_firstFailing_of_forall {l : List α} (h : ∀ a ∈ l, ok a) (a : α) :
    ¬ FirstFailing ok l a := by
  rintro ⟨front, rest, rfl, -, ha⟩
  exact ha (h a (by simp))

@[simp] theorem not_firstFailing_nil (a : α) : ¬ FirstFailing ok [] a :=
  not_firstFailing_of_forall (by simp) a

theorem firstFailing_cons {b : α} {l : List α} {a : α} :
    FirstFailing ok (b :: l) a ↔ b = a ∧ ¬ ok a ∨ ok b ∧ FirstFailing ok l a := by
  constructor
  · rintro ⟨_ | ⟨c, front⟩, rest, hl, hfront, ha⟩
    · exact .inl ⟨(List.cons.inj hl).1, ha⟩
    · obtain ⟨rfl, rfl⟩ := List.cons.inj hl
      exact .inr ⟨hfront b List.mem_cons_self, front, rest, rfl, fun c hc => hfront c (.tail _ hc), ha⟩
  · rintro (⟨rfl, ha⟩ | ⟨hb, front, rest, rfl, hfront, ha⟩)
    · exact ⟨[], l, rfl, by simp, ha⟩
    · exact ⟨b :: front, rest, rfl, List.forall_mem_cons.mpr ⟨hb, hfront⟩, ha⟩

/-- Behind a member that passes, the first failure is that of the rest. -/
theorem firstFailing_cons_of_pos {b : α} (hb : ok b) {l : List α} {a : α} :
    FirstFailing ok (b :: l) a ↔ FirstFailing ok l a := by
  rw [firstFailing_cons]
  exact ⟨fun h => h.elim (fun ⟨hba, ha⟩ => absurd (hba ▸ hb) ha) And.right, fun h => .inr ⟨hb, h⟩⟩

/-- A member that fails is the first failure itself. -/
theorem firstFailing_cons_of_neg {b : α} (hb : ¬ ok b) {l : List α} {a : α} :
    FirstFailing ok (b :: l) a ↔ b = a := by
  rw [firstFailing_cons]
  exact ⟨fun h => h.elim And.left fun h => absurd h.1 hb, fun h => .inl ⟨h, h ▸ hb⟩⟩

/-- There is one first failure. -/
theorem FirstFailing.unique {l : List α} {a b : α} (ha : FirstFailing ok l a)
    (hb : FirstFailing ok l b) : a = b := by
  induction l with
  | nil => exact absurd ha (not_firstFailing_nil a)
  | cons c rest ih =>
    by_cases hc : ok c
    · exact ih ((firstFailing_cons_of_pos hc).mp ha) ((firstFailing_cons_of_pos hc).mp hb)
    · exact ((firstFailing_cons_of_neg hc).mp ha).symm.trans ((firstFailing_cons_of_neg hc).mp hb)

end FirstFailing

/-! ## Look-ups, and related lists -/

theorem mem_of_lookup_eq_some {α β : Type} [BEq α] [LawfulBEq α] {l : List (α × β)} {a : α} {b : β}
    (h : l.lookup a = some b) : (a, b) ∈ l := by
  induction l with
  | nil => simp at h
  | cons e rest ih =>
    rw [List.lookup_cons] at h
    split at h
    · next he =>
      obtain rfl := Option.some.inj h
      obtain rfl := eq_of_beq he
      exact List.mem_cons_self
    · exact List.mem_cons_of_mem _ (ih h)

theorem isSome_lookup_iff {α β : Type} [BEq α] [LawfulBEq α] {l : List (α × β)} {a : α} :
    (l.lookup a).isSome = true ↔ ∃ b, (a, b) ∈ l := by
  rw [List.lookup_isSome_iff]
  constructor
  · rintro ⟨⟨a', b⟩, hmem, heq⟩
    obtain rfl : a = a' := eq_of_beq heq
    exact ⟨b, hmem⟩
  · rintro ⟨b, hmem⟩
    exact ⟨(a, b), hmem, beq_self_eq_true a⟩

variable {α β : Type} {R : α → β → Prop} {l : List α} {m : List β}

theorem exists_right_of_forall₂ (h : List.Forall₂ R l m) {i : Nat} {a : α} (ha : l[i]? = some a) :
    ∃ b, m[i]? = some b ∧ R a b := by
  induction h generalizing i with
  | nil => simp at ha
  | cons hab _ ih =>
    cases i with
    | zero =>
      obtain rfl := Option.some.inj ha
      exact ⟨_, rfl, hab⟩
    | succ i => exact ih ha

theorem exists_left_of_forall₂ (h : List.Forall₂ R l m) {i : Nat} {b : β} (hb : m[i]? = some b) :
    ∃ a, l[i]? = some a ∧ R a b :=
  exists_right_of_forall₂ (R := fun b a => R a b) h.flip hb

theorem exists_left_of_mem (h : List.Forall₂ R l m) {b : β} (hb : b ∈ m) : ∃ a ∈ l, R a b := by
  obtain ⟨i, hi⟩ := List.mem_iff_getElem?.mp hb
  obtain ⟨a, ha, hab⟩ := exists_left_of_forall₂ h hi
  exact ⟨a, List.mem_of_getElem? ha, hab⟩

theorem exists_right_of_mem (h : List.Forall₂ R l m) {a : α} (ha : a ∈ l) : ∃ b ∈ m, R a b := by
  obtain ⟨i, hi⟩ := List.mem_iff_getElem?.mp ha
  obtain ⟨b, hb, hab⟩ := exists_right_of_forall₂ h hi
  exact ⟨b, List.mem_of_getElem? hb, hab⟩

/-- Members of related lists may be known to be members. -/
theorem forall₂_imp_of_mem {S : α → β → Prop} (h : List.Forall₂ R l m)
    (himp : ∀ a ∈ l, ∀ b ∈ m, R a b → S a b) : List.Forall₂ S l m := by
  induction h with
  | nil => exact .nil
  | cons hab _ ih =>
    refine .cons (himp _ List.mem_cons_self _ List.mem_cons_self hab) (ih fun a ha b hb => ?_)
    exact himp a (.tail _ ha) b (.tail _ hb)

theorem forall₂_and {S : α → β → Prop} (h : List.Forall₂ R l m) (h' : List.Forall₂ S l m) :
    List.Forall₂ (fun a b => R a b ∧ S a b) l m := by
  induction h with
  | nil => exact .nil
  | cons hab _ ih =>
    obtain ⟨hab', hrest⟩ := List.forall₂_cons.mp h'
    exact .cons ⟨hab, hab'⟩ (ih hrest)

/-- What is related to a list in two parts has two parts. -/
theorem exists_append_of_forall₂ {front back : List α} (h : List.Forall₂ R (front ++ back) m) :
    ∃ m₁ m₂, m = m₁ ++ m₂ ∧ List.Forall₂ R front m₁ ∧ List.Forall₂ R back m₂ := by
  induction front generalizing m with
  | nil => exact ⟨[], m, rfl, .nil, h⟩
  | cons a rest ih =>
    obtain ⟨b, m', hab, hrest, rfl⟩ := List.forall₂_cons_left_iff.mp h
    obtain ⟨m₁, m₂, rfl, hfront, hback⟩ := ih hrest
    exact ⟨b :: m₁, m₂, rfl, .cons hab hfront, hback⟩

/-- A function that does not tell related members apart takes both lists to one. -/
theorem map_eq_of_forall₂ {γ : Type} {f : α → γ} {g : β → γ} (h : List.Forall₂ R l m)
    (hfg : ∀ a b, R a b → f a = g b) : l.map f = m.map g := by
  induction h with
  | nil => rfl
  | cons hab _ ih => rw [List.map_cons, List.map_cons, hfg _ _ hab, ih]

/-- Where keys are distinct, a member is the only one with its key. -/
theorem filter_eq_singleton [DecidableEq β] {key : α → β} (h : (l.map key).Nodup) {a : α}
    (ha : a ∈ l) : (l.filter fun b => key b = key a) = [a] := by
  induction l with
  | nil => exact absurd ha List.not_mem_nil
  | cons b rest ih =>
    rw [List.map_cons, List.nodup_cons] at h
    rcases List.mem_cons.mp ha with rfl | ha
    · rw [List.filter_cons_of_pos (by simp), List.filter_eq_nil_iff.mpr]
      intro b hb
      have hne : key b ≠ key a := fun heq => h.1 (heq ▸ List.mem_map_of_mem hb)
      simpa using hne
    · have hne : key b ≠ key a := fun heq => h.1 (heq ▸ List.mem_map_of_mem ha)
      rw [List.filter_cons_of_neg (by simpa using hne), ih h.2 ha]

/-- Where keys are distinct, a member has one place. -/
theorem place_eq_of_nodup_map {key : α → β} (h : (l.map key).Nodup) {i j : Nat} {a b : α}
    (ha : l[i]? = some a) (hb : l[j]? = some b) (heq : key a = key b) : i = j := by
  have hlt : i < (l.map key).length := by
    rw [List.length_map]
    exact (List.getElem?_eq_some_iff.mp ha).1
  refine (List.getElem?_inj hlt h).mp ?_
  rw [List.getElem?_map, List.getElem?_map, ha, hb, Option.map_some, Option.map_some, heq]

/-- Keys are distinct where no member repeats the key of one in front of it. -/
theorem nodup_map_iff_take {key : α → β} : (l.map key).Nodup
    ↔ ∀ i a, l[i]? = some a → ¬ ∃ b ∈ l.take i, key b = key a := by
  rw [List.Nodup, List.pairwise_map, List.pairwise_iff_getElem]
  constructor
  · rintro h i a ha ⟨b, hb, heq⟩
    obtain ⟨hi, rfl⟩ := List.getElem?_eq_some_iff.mp ha
    obtain ⟨j, hj, rfl⟩ := List.mem_take_iff_getElem.mp hb
    exact h j i _ hi (by omega) heq
  · intro h i j hi hj hij heq
    exact h j _ (List.getElem?_eq_getElem hj)
      ⟨_, List.mem_take_iff_getElem.mpr ⟨i, by omega, rfl⟩, heq⟩

/-- Where keys are distinct, a member is found at the place of its key. -/
theorem getElem?_idxOf_map [BEq β] [LawfulBEq β] {key : α → β} (h : (l.map key).Nodup) {a : α}
    (ha : a ∈ l) : l[(l.map key).idxOf (key a)]? = some a := by
  have hget : (l.map key)[(l.map key).idxOf (key a)]? = some (key a) :=
    List.getElem?_idxOf (List.mem_map_of_mem ha)
  rw [List.getElem?_map] at hget
  obtain ⟨b, hb, hkey⟩ := Option.map_eq_some_iff.mp hget
  rwa [List.inj_on_of_nodup_map h (List.mem_of_getElem? hb) ha hkey] at hb

/-- Where keys are distinct, the key of a member has its place. -/
theorem idxOf_map_of_nodup [BEq α] [LawfulBEq α] [BEq β] [LawfulBEq β] {key : α → β}
    (h : (l.map key).Nodup) {a : α} (ha : a ∈ l) : (l.map key).idxOf (key a) = l.idxOf a :=
  place_eq_of_nodup_map h (getElem?_idxOf_map h ha) (List.getElem?_idxOf ha) rfl

/-- Ascending lists of texts with the same members are the same. -/
theorem eq_of_ascending {l m : List String} (hl : l.Pairwise (· < ·)) (hm : m.Pairwise (· < ·))
    (hmem : ∀ t, t ∈ l ↔ t ∈ m) : l = m := by
  have hirrefl : Std.Irrefl (α := String) (· < ·) := ⟨fun a => String.lt_irrefl a⟩
  have hantisymm : Std.Antisymm (α := String) (· < ·) :=
    ⟨fun a b hab hba => absurd hba (String.lt_asymm hab)⟩
  exact hl.eq_of_mem_iff hm hmem

/-- A list of results without a missing one has each of them. -/
theorem eq_map_some_of_mapM_id {α : Type} {l : List (Option α)} {m : List α}
    (h : l.mapM id = some m) : l = m.map some := by
  induction l generalizing m with
  | nil =>
    obtain rfl : [] = m := by simpa using h
    rfl
  | cons a rest ih =>
    rw [List.mapM_cons] at h
    obtain ⟨b, hb, h⟩ := Option.bind_eq_some_iff.mp h
    obtain ⟨bs, hbs, h⟩ := Option.bind_eq_some_iff.mp h
    obtain rfl := Option.some.inj h
    rw [List.map_cons, ← ih hbs, ← hb]
    rfl

/-- A list of results has a missing one, or all of them can be had. -/
theorem mapM_id_eq_none_iff {α : Type} {l : List (Option α)} : l.mapM id = none ↔ none ∈ l := by
  induction l with
  | nil => simp
  | cons a rest ih =>
    rw [List.mapM_cons, List.mem_cons, ← ih]
    rcases a with _ | a
    · simp
    · rcases rest.mapM id with _ | bs <;> simp

/-- Reading what was written item by item gives what each item is read as. -/
theorem mapM_map_of_forall {α β γ : Type} {write : α → β} {read : β → Option γ} {f : α → γ}
    {l : List α} (h : ∀ a ∈ l, read (write a) = some (f a)) :
    (l.map write).mapM read = some (l.map f) := by
  induction l with
  | nil => rfl
  | cons a rest ih =>
    have hrest := ih fun b hb => h b (List.mem_cons_of_mem a hb)
    rw [List.map_cons, List.mapM_cons, h a List.mem_cons_self, hrest]
    rfl

theorem mapM_map_of_left_inverse {α β : Type} {write : α → β} {read : β → Option α} {l : List α}
    (h : ∀ a ∈ l, read (write a) = some a) : (l.map write).mapM read = some l := by
  rw [mapM_map_of_forall (f := id) h, List.map_id]

theorem exists_of_mem_of_mapM {α β : Type} {read : α → Option β} {l : List α} {m : List β}
    (h : l.mapM read = some m) {b : β} (hb : b ∈ m) : ∃ a ∈ l, read a = some b := by
  induction l generalizing m with
  | nil =>
    obtain rfl : [] = m := by simpa using h
    exact absurd hb List.not_mem_nil
  | cons a rest ih =>
    rw [List.mapM_cons] at h
    obtain ⟨c, hc, h⟩ := Option.bind_eq_some_iff.mp h
    obtain ⟨cs, hcs, h⟩ := Option.bind_eq_some_iff.mp h
    obtain rfl := Option.some.inj h
    rcases List.mem_cons.mp hb with rfl | hmem
    · exact ⟨a, List.mem_cons_self, hc⟩
    · obtain ⟨d, hd, hread⟩ := ih hcs hmem
      exact ⟨d, List.mem_cons_of_mem a hd, hread⟩

/-- **Sorting the members of a list by their keys keeps each of them once.** -/
theorem perm_flatMap_filter [DecidableEq β] {key : α → β} {keys : List β} (hkeys : keys.Nodup)
    {l : List α} (hmem : ∀ a ∈ l, key a ∈ keys) :
    (keys.flatMap fun k => l.filter fun a => key a = k).Perm l := by
  induction keys generalizing l with
  | nil =>
    obtain rfl : l = [] := List.eq_nil_iff_forall_not_mem.mpr fun a ha => by simpa using hmem a ha
    exact .nil
  | cons k rest ih =>
    obtain ⟨hk, hrest⟩ := List.nodup_cons.mp hkeys
    -- the other keys find their members among those that do not have the first key
    have hothers : ∀ k' ∈ rest, (l.filter fun a => key a = k')
        = (l.filter fun a => !decide (key a = k)).filter fun a => key a = k' := by
      intro k' hk'
      rw [List.filter_filter]
      refine List.filter_congr fun a _ => ?_
      by_cases hkey : key a = k'
      · have hne : key a ≠ k := fun h => hk (h ▸ hkey ▸ hk')
        simp [hkey, hkey ▸ hne]
      · simp [hkey]
    have hleft : ∀ a ∈ l.filter (fun a => !decide (key a = k)), key a ∈ rest := by
      intro a ha
      obtain ⟨ha, hne⟩ := List.mem_filter.mp ha
      exact (List.mem_cons.mp (hmem a ha)).resolve_left (by simpa using hne)
    rw [List.flatMap_cons, List.flatMap_congr hothers]
    exact ((ih hrest hleft).append_left _).trans (List.filter_append_perm _ l)

/-- **Lists of distinct members and of one length are the same up to a renaming.** -/
theorem exists_perm_map_eq {l m : List α} (hl : l.Nodup) (hm : m.Nodup)
    (hlength : l.length = m.length) : ∃ move : Equiv.Perm α, l.map move = m := by
  classical
  let x : Fin l.length ↪ α := ⟨l.get, List.nodup_iff_injective_get.mp hl⟩
  let y : Fin l.length ↪ α := ⟨fun i => m.get (i.cast hlength),
    (List.nodup_iff_injective_get.mp hm).comp (Fin.cast_injective hlength)⟩
  have htransitive := Equiv.Perm.isMultiplyPretransitive α l.length
  obtain ⟨move, hmove⟩ := MulAction.exists_smul_eq (Equiv.Perm α) x y
  refine ⟨move, List.ext_getElem (by simp [hlength]) fun i hi _ => ?_⟩
  have hplace : i < l.length := by simpa using hi
  simpa [x, y] using DFunLike.congr_fun hmove ⟨i, hplace⟩

end Reconcile
