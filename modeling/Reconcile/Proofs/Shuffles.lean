import Reconcile.Proofs.Drafting.Twins
import Reconcile.Proofs.Lists

/-!
# Proofs/Shuffles — batches that are the same up to order and identifiers

Two lists are shuffles of each other when the one, put in some order, is related to the other member
by member (`Shuffled`).  A change is `Change.Alike` another one when it does the same under another
identifier and depends on the same changes, in whatever order it lists them.  Main fact:
`exists_shuffled_of_perm` — batches whose changes do the same are shuffled under a renaming of
identifiers.
-/

namespace Reconcile

/-- **The second list, put in some order, is related to the first one member by member.** -/
def Shuffled {α β : Type} (R : α → β → Prop) (as : List α) (bs : List β) : Prop :=
  ∃ cs, List.Forall₂ R as cs ∧ cs.Perm bs

namespace Shuffled

variable {α β γ δ : Type} {R : α → β → Prop} {S : γ → δ → Prop} {as as' : List α} {bs bs' : List β}

/-- The order of the second list does not matter. -/
theorem perm_right (h : Shuffled R as bs) (hperm : bs.Perm bs') : Shuffled R as bs' :=
  let ⟨cs, hrel, hcs⟩ := h
  ⟨cs, hrel, hcs.trans hperm⟩

/-- The order of the first list does not matter. -/
theorem perm_left (h : Shuffled R as bs) (hperm : as.Perm as') : Shuffled R as' bs := by
  obtain ⟨cs, hrel, hcs⟩ := h
  obtain ⟨ds, hrel', hds⟩ := List.perm_comp_forall₂ hperm.symm hrel
  exact ⟨ds, hrel', hds.trans hcs⟩

/-- Lists whose members have the same properties are shuffled. -/
theorem of_perm_map {f : α → γ} {g : β → γ} (h : (as.map f).Perm (bs.map g)) :
    Shuffled (fun a b => f a = g b) as bs := by
  have hbs : List.Forall₂ (fun y b => y = g b) (bs.map g) bs :=
    List.forall₂_map_left_iff.mpr (List.forall₂_same.mpr fun _ _ => rfl)
  obtain ⟨cs, hrel, hcs⟩ := List.perm_comp_forall₂ h hbs
  exact ⟨cs, List.forall₂_map_left_iff.mp hrel, hcs⟩

theorem exists_right_of_mem (h : Shuffled R as bs) {a : α} (ha : a ∈ as) : ∃ b ∈ bs, R a b := by
  obtain ⟨cs, hrel, hcs⟩ := h
  obtain ⟨b, hb, hab⟩ := Reconcile.exists_right_of_mem hrel ha
  exact ⟨b, hcs.mem_iff.mp hb, hab⟩

theorem exists_left_of_mem (h : Shuffled R as bs) {b : β} (hb : b ∈ bs) : ∃ a ∈ as, R a b := by
  obtain ⟨cs, hrel, hcs⟩ := h
  exact Reconcile.exists_left_of_mem hrel (hcs.mem_iff.mpr hb)

/-- What holds of related members relates them too. -/
theorem imp_of_mem {R' : α → β → Prop} (h : Shuffled R as bs)
    (himp : ∀ a ∈ as, ∀ b ∈ bs, R a b → R' a b) : Shuffled R' as bs := by
  obtain ⟨cs, hrel, hcs⟩ := h
  exact ⟨cs, forall₂_imp_of_mem hrel fun a ha b hb => himp a ha b (hcs.mem_iff.mp hb), hcs⟩

/-- Functions that take related members to related ones keep lists shuffled. -/
theorem map {f : α → γ} {g : β → δ} (h : Shuffled R as bs)
    (hfg : ∀ a ∈ as, ∀ b ∈ bs, R a b → S (f a) (g b)) : Shuffled S (as.map f) (bs.map g) := by
  obtain ⟨cs, hrel, hcs⟩ := h.imp_of_mem hfg
  refine ⟨cs.map g, ?_, hcs.map g⟩
  rwa [List.forall₂_map_left_iff, List.forall₂_map_right_iff]

/-- What related members have in common, shuffled lists have in common. -/
theorem perm_map {f : α → γ} {g : β → γ} (h : Shuffled R as bs)
    (hfg : ∀ a ∈ as, ∀ b ∈ bs, R a b → f a = g b) : (as.map f).Perm (bs.map g) := by
  obtain ⟨cs, hrel, hcs⟩ := h.imp_of_mem hfg
  exact map_eq_of_forall₂ hrel (fun _ _ heq => heq) ▸ hcs.map g

theorem perm_flatMap {f : α → List γ} {g : β → List γ} (h : Shuffled R as bs)
    (hfg : ∀ a ∈ as, ∀ b ∈ bs, R a b → f a = g b) : (as.flatMap f).Perm (bs.flatMap g) := by
  rw [List.flatMap_def, List.flatMap_def]
  exact (h.perm_map hfg).flatten

/-- Members that pass tests which agree on related ones are shuffled. -/
theorem filter {p : α → Bool} {q : β → Bool} (h : Shuffled R as bs)
    (hpq : ∀ a b, R a b → p a = q b) : Shuffled R (as.filter p) (bs.filter q) := by
  obtain ⟨cs, hrel, hcs⟩ := h
  exact ⟨cs.filter q, List.rel_filter (fun a b hab => iff_of_eq (congrArg (· = true) (hpq a b hab)))
    hrel, hcs.filter q⟩

end Shuffled

/-! ## Changes -/

/-- **A change under another identifier does the same**, whatever it depends on. -/
structure Change.Moved (move : String → String) (a b : Change) : Prop where
  id : b.id = move a.id
  bare : b.bare = a.bare

/-- **A change under another identifier is alike**: it does the same, and depends on the same
changes. -/
structure Change.Alike (move : String → String) (a b : Change) : Prop extends
    Change.Moved move a b where
  dependsOn : ∀ d, d ∈ b.dependsOn ↔ d ∈ a.dependsOn.map move

/-- A function of all of a change but its identifier and dependencies. -/
theorem Change.Moved.congr {γ : Type} {move : String → String} {a b : Change} (h : a.Moved move b)
    (f : Change → γ) (hf : ∀ e, f e = f e.bare) : f b = f a := by
  rw [hf b, h.bare, ← hf a]

/-- Dependencies are apart from the rest of a change. -/
theorem Change.bare_addDependencies (a : Change) (ds : List String) :
    (ds.foldl addDependency a).bare = a.bare := by
  induction ds generalizing a with
  | nil => rfl
  | cons d rest ih =>
    rw [List.foldl_cons, ih, addDependency]
    split <;> rfl

/-- **Batches whose changes do the same under distinct identifiers are shuffled** under a renaming
of identifiers. -/
theorem exists_shuffled_of_perm {as bs : List Change}
    (hbare : (as.map Change.bare).Perm (bs.map Change.bare)) (has : (as.map (·.id)).Nodup)
    (hbs : (bs.map (·.id)).Nodup) :
    ∃ move : Equiv.Perm String, Shuffled (Change.Moved move) as bs := by
  obtain ⟨cs, hrel, hcs⟩ := Shuffled.of_perm_map hbare
  have hnodup : (cs.map (·.id)).Nodup := (hcs.map _).nodup_iff.mpr hbs
  obtain ⟨move, hmove⟩ := exists_perm_map_eq has hnodup (by simpa using hrel.length_eq)
  rw [List.map_map, ← List.forall₂_eq_eq_eq, List.forall₂_map_left_iff,
    List.forall₂_map_right_iff] at hmove
  refine ⟨move, cs, (forall₂_and hrel hmove).imp fun a b ⟨hsame, hid⟩ => ?_, hcs⟩
  exact ⟨hid.symm, hsame.symm⟩

section Ids

variable {move : String → String} {as bs : List Change}

theorem Shuffled.moved (h : Shuffled (Change.Alike move) as bs) :
    Shuffled (Change.Moved move) as bs := h.imp_of_mem fun _ _ _ _ hab => hab.toMoved

/-- The identifiers of shuffled batches, renamed. -/
theorem Shuffled.perm_ids (h : Shuffled (Change.Moved move) as bs) :
    ((as.map (·.id)).map move).Perm (bs.map (·.id)) := by
  rw [List.map_map]
  exact h.perm_map fun _ _ _ _ hab => hab.id.symm

theorem Shuffled.nodup_ids (h : Shuffled (Change.Moved move) as bs)
    (hmove : Function.Injective move) (hnodup : (as.map (·.id)).Nodup) : (bs.map (·.id)).Nodup :=
  h.perm_ids.nodup_iff.mp (hnodup.map hmove)

end Ids

/-! ## Links between deletes -/

/-- A delete is linked to another one of a kind that it waits for. -/
def Change.LinksTo (c d : Change) : Prop :=
  c.action = .delete ∧ d.action = .delete ∧ ∃ kinds, deleteAfter.lookup c.kind = some kinds
    ∧ d.kind ∈ kinds ∧ waitsForDelete c d = true

theorem mem_deleteLinks {changes : List Change} {c : Change} {id : String} :
    id ∈ deleteLinks changes c ↔ ∃ d ∈ changes, c.LinksTo d ∧ d.id = id := by
  unfold deleteLinks Change.LinksTo
  by_cases hdelete : c.action = .delete
  · rw [if_neg (by simp [hdelete])]
    rcases hkinds : deleteAfter.lookup c.kind with _ | kinds
    · simp
    · simp [hdelete, and_assoc]
  · rw [if_pos (by simpa using hdelete)]
    simp [hdelete]

/-- **Links between deletes are the same in shuffled batches.** -/
theorem shuffled_linkDeletes {move : String → String} (hmove : Function.Injective move)
    {as bs : List Change} (h : Shuffled (Change.Alike move) as bs) :
    Shuffled (Change.Alike move) (linkDeletes as) (linkDeletes bs) := by
  have hlinks : ∀ {a b x y : Change}, a.Alike move b → x.Alike move y →
      (a.LinksTo x ↔ b.LinksTo y) := by
    intro a b x y hab hxy
    change a.bare.LinksTo x.bare ↔ b.bare.LinksTo y.bare
    rw [hab.bare, hxy.bare]
  refine h.map fun a ha b hb hab => ⟨⟨?_, ?_⟩, fun id => ?_⟩
  · rw [(a.extends_addDependencies _).id, (b.extends_addDependencies _).id, hab.id]
  · rw [Change.bare_addDependencies, Change.bare_addDependencies, hab.bare]
  · rw [Change.mem_dependsOn_addDependencies, hab.dependsOn, hab.id, mem_deleteLinks, List.mem_map,
      List.mem_map]
    constructor
    · rintro (⟨x, hx, rfl⟩ | ⟨⟨y, hy, hlinked, rfl⟩, hne⟩)
      · exact ⟨x, Change.mem_dependsOn_addDependencies.mpr (.inl hx), rfl⟩
      · obtain ⟨x, hx, hxy⟩ := h.exists_left_of_mem hy
        rw [hxy.id] at hne ⊢
        refine ⟨x.id, Change.mem_dependsOn_addDependencies.mpr (.inr ⟨?_, fun heq => ?_⟩), rfl⟩
        · exact mem_deleteLinks.mpr ⟨x, hx, (hlinks hab hxy).mpr hlinked, rfl⟩
        · exact hne (congrArg move heq)
    · rintro ⟨id, hid, rfl⟩
      rcases Change.mem_dependsOn_addDependencies.mp hid with hid | ⟨hid, hne⟩
      · exact .inl ⟨id, hid, rfl⟩
      · obtain ⟨x, hx, hlinked, rfl⟩ := mem_deleteLinks.mp hid
        obtain ⟨y, hy, hxy⟩ := h.exists_right_of_mem hx
        exact .inr ⟨⟨y, hy, (hlinks hab hxy).mp hlinked, hxy.id⟩, fun heq => hne (hmove heq)⟩

end Reconcile
