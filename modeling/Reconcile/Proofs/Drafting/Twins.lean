import Reconcile.Proofs.Drafting.Outcomes
import Reconcile.Proofs.Drafting.Sketches
import Reconcile.Proofs.Numbering

/-!
# Proofs/Drafting/Twins — drafting with and without deletes

The tasks of a pass that deletes are those of one that does not, with deletes in between.  Main
facts: `Scene.twins_of_run` — as long as no delete takes the kind and the reference of a declaration
behind it that has a change in the end, both runs draft the same for the declarations, up to
identifiers, which count the deletes too — and `Scene.forall_key_ne_of_taken` — a declaration behind
such a delete has no create or update.
-/

namespace Reconcile

/-! ## Twins -/

/-- The changes that are no deletes. -/
def keptOf (changes : List Change) : List Change := changes.filter fun e => e.action ≠ .delete

theorem mem_keptOf {changes : List Change} {e : Change} :
    e ∈ keptOf changes ↔ e ∈ changes ∧ e.action ≠ .delete := by
  simp [keptOf]

theorem keptOf_append (as bs : List Change) : keptOf (as ++ bs) = keptOf as ++ keptOf bs :=
  List.filter_append _ _

/-- All of a change but its identifier and what it depends on. -/
def Change.bare (e : Change) : Change := { e with id := "", dependsOn := [] }

/-- A change under another identifier that does the same, and depends on twins of what the other
one depends on. -/
structure Change.Twin (twins : List (Change × Change)) (a b : Change) : Prop where
  bare : b.bare = a.bare
  dependsOn : List.Forall₂ (fun i j => ∃ x ∈ twins, x.1.id = i ∧ x.2.id = j) a.dependsOn b.dependsOn

/-- **Changes that are twins, one by one.** -/
def Twins (as bs : List Change) : Prop :=
  ∃ twins : List (Change × Change), twins.map Prod.fst = as ∧ twins.map Prod.snd = bs
    ∧ ∀ x ∈ twins, x.1.Twin twins x.2

namespace Twins

variable {as bs : List Change} {a b : Change}

theorem nil : Twins [] [] := ⟨[], rfl, rfl, by simp⟩

variable {twins : List (Change × Change)}

theorem key_eq (h : a.Twin twins b) : b.key = a.key := by
  change b.bare.key = a.bare.key
  rw [h.bare]

theorem creates_eq (h : a.Twin twins b) (kind ref : String) :
    b.creates kind ref = a.creates kind ref := by
  change b.bare.creates kind ref = a.bare.creates kind ref
  rw [h.bare]

/-- Both have changes for the same kinds and references. -/
theorem exists_key_iff (h : Twins as bs) {key : String × String} :
    (∃ e ∈ bs, e.key = key) ↔ ∃ e ∈ as, e.key = key := by
  obtain ⟨twins, rfl, rfl, htwins⟩ := h
  constructor
  · rintro ⟨e, he, rfl⟩
    obtain ⟨x, hx, rfl⟩ := List.mem_map.mp he
    exact ⟨x.1, List.mem_map_of_mem hx, (key_eq (htwins x hx)).symm⟩
  · rintro ⟨e, he, rfl⟩
    obtain ⟨x, hx, rfl⟩ := List.mem_map.mp he
    exact ⟨x.2, List.mem_map_of_mem hx, key_eq (htwins x hx)⟩

/-- **What depends on the first create of a kind and reference has a twin** that depends on the
first one of the twins. -/
theorem forall₂_createOf (h : Twins as bs) (kind ref : String) :
    ∃ twins : List (Change × Change), twins.map Prod.fst = as ∧ twins.map Prod.snd = bs
      ∧ (∀ x ∈ twins, x.1.Twin twins x.2)
      ∧ List.Forall₂ (fun i j => ∃ x ∈ twins, x.1.id = i ∧ x.2.id = j)
        ((as.find? fun e => e.creates kind ref).map (·.id)).toList
        ((bs.find? fun e => e.creates kind ref).map (·.id)).toList := by
  obtain ⟨twins, rfl, rfl, htwins⟩ := h
  refine ⟨twins, rfl, rfl, htwins, ?_⟩
  have hsame : twins.find? ((fun e => e.creates kind ref) ∘ Prod.snd)
      = twins.find? ((fun e => e.creates kind ref) ∘ Prod.fst) := by
    refine List.find?_congr fun x hx => ?_
    exact creates_eq (htwins x hx) kind ref
  rw [List.find?_map, List.find?_map, hsame]
  rcases hfound : twins.find? ((fun e => e.creates kind ref) ∘ Prod.fst) with _ | x <;> rw [hfound]
  · exact .nil
  · exact .cons ⟨x, List.mem_of_find?_eq_some hfound, rfl, rfl⟩ .nil

/-- Twins with one more pair. -/
theorem append (hfst : twins.map Prod.fst = as)
    (hsnd : twins.map Prod.snd = bs) (htwins : ∀ x ∈ twins, x.1.Twin twins x.2)
    (hab : a.Twin twins b) : Twins (as ++ [a]) (bs ++ [b]) := by
  have hmono : ∀ {c d : Change}, c.Twin twins d → c.Twin (twins ++ [(a, b)]) d :=
    fun hcd => ⟨hcd.bare, hcd.dependsOn.imp fun i j ⟨x, hx, hi, hj⟩ =>
      ⟨x, List.mem_append_left _ hx, hi, hj⟩⟩
  refine ⟨twins ++ [(a, b)], by simp [hfst], by simp [hsnd], fun x hx => ?_⟩
  rcases List.mem_append.mp hx with hx | hx
  · exact hmono (htwins x hx)
  · obtain rfl := List.mem_singleton.mp hx
    exact hmono hab

/-- **Twins with distinct identifiers are the same up to a renaming of identifiers.** -/
theorem exists_renamed (h : Twins as bs) (has : (as.map (·.id)).Nodup)
    (hbs : (bs.map (·.id)).Nodup) :
    ∃ move : Equiv.Perm String, bs = as.map (Change.renamed move) := by
  obtain ⟨twins, rfl, rfl, htwins⟩ := h
  obtain ⟨move, hmove⟩ := exists_perm_map_eq has hbs (by simp)
  refine ⟨move, ?_⟩
  rw [List.map_map, List.map_map, List.map_map] at hmove
  have hid : ∀ x ∈ twins, move x.1.id = x.2.id := fun x hx => List.map_inj_left.mp hmove x hx
  rw [List.map_map]
  refine List.map_congr_left fun x hx => ?_
  obtain ⟨hbare, hdeps⟩ := htwins x hx
  have hdependsOn : x.2.dependsOn = x.1.dependsOn.map move := by
    have heq := map_eq_of_forall₂ (f := move) (g := fun j => j) hdeps fun i j ⟨y, hy, hi, hj⟩ => by
      rw [← hi, ← hj, hid y hy]
    rw [heq, List.map_id']
  calc x.2 = { x.2.bare with id := x.2.id, dependsOn := x.2.dependsOn } := rfl
    _ = { x.1.bare with id := move x.1.id, dependsOn := x.1.dependsOn.map move } := by
      rw [hbare, hid x hx, hdependsOn]
    _ = x.1.renamed move := rfl

end Twins

/-- The first create of a kind and reference is no delete. -/
theorem find?_keptOf (changes : List Change) (kind ref : String) :
    (keptOf changes).find? (fun e => e.creates kind ref)
      = changes.find? fun e => e.creates kind ref := by
  unfold keptOf
  rw [List.find?_filter]
  congr 1
  funext e
  rw [Bool.eq_iff_iff]
  rcases haction : e.action <;> simp [Change.creates, haction]

/-! ## Tasks -/

namespace Task

/-- The task is about a declaration. -/
def isDeclared : Task → Bool
  | .declared _ _ _ => true
  | .orphan _ _ _ => false

/-- The namespace that a task belongs to. -/
def scope : Task → String
  | .declared _ scope _ => scope
  | .orphan _ scope _ => scope

/-- A delete takes the kind and the reference of a declaration. -/
def Takes (u t : Task) : Prop := u.isDeclared = false ∧ t.isDeclared = true ∧ t.key = u.key

end Task

namespace Scene

variable {c : Scene} {k : KindPlanner} {scope : String} {d : Declaration} {r : Resource}
  {s s' s₁ s₁' final final' : Sketch} {t : Task} {ts : List Task} {ks : List KindPlanner}
  {e : Change}

/-! ## One task for twins -/

/-- The changes so far stay in the draft. -/
theorem subset_changes_of_run (h : c.run ts s = .ok s') : s.changes ⊆ s'.changes := by
  refine run_induction (I := fun s' => s.changes ⊆ s'.changes) (fun t _ s₁ s₂ hsub hstep => ?_)
    (List.Subset.refl _) h
  rcases changes_step hstep with heq | ⟨e, -, heq⟩
  · rwa [heq]
  · rw [heq]
    exact List.subset_append_of_subset_left _ hsub

theorem key_of_planned (h : c.verdict s t = .planned e) : e.key = t.key := by
  have hcore : e.core.key = t.key := key_of_outcome? (outcome?_of_planned h)
  exact hcore

/-- A step drafts at most a change with the kind and the reference of its task. -/
theorem mem_changes_of_step (h : c.step s t = .ok s') (he : e ∈ s'.changes) :
    e ∈ s.changes ∨ e.key = t.key := by
  rcases changes_step h with heq | ⟨b, hplanned, heq⟩
  · exact .inl (heq ▸ he)
  · rcases List.mem_append.mp (heq ▸ he) with he | he
    · exact .inl he
    · obtain rfl := List.mem_singleton.mp he
      exact .inr (key_of_planned hplanned)

/-- What is planned for a declaration is no delete. -/
theorem action_of_planned_declared (hdeclared : t.isDeclared = true)
    (h : c.verdict s t = .planned e) : e.action ≠ .delete := by
  rcases planned_cases h with ⟨k, scope, d, r, -, -, -, -, rfl⟩ | ⟨k, scope, d, -, -, rfl⟩
    | ⟨k, scope, r, rfl, -, -⟩
  · simp [updateChange]
  · simp [createChange]
  · exact absurd hdeclared (by simp [Task.isDeclared])

/-- What is planned for a resource that nobody declares is a delete. -/
theorem action_of_planned_orphan (horphan : t.isDeclared = false)
    (h : c.verdict s t = .planned e) : e.action = .delete := by
  rcases planned_cases h with ⟨k, scope, d, r, rfl, -, -, -, -⟩ | ⟨k, scope, d, rfl, -, -⟩
    | ⟨k, scope, r, -, -, rfl⟩
  · exact absurd horphan (by simp [Task.isDeclared])
  · exact absurd horphan (by simp [Task.isDeclared])
  · rfl

/-- The update for a declaration is twice the same. -/
theorem twins_updateChange (h : Twins s.changes (keptOf s'.changes)) :
    Twins (s.changes ++ [c.updateChange k scope d r s])
      (keptOf (s'.changes ++ [c.updateChange k scope d r s'])) := by
  obtain ⟨twins, hfst, hsnd, htwins⟩ := h
  rw [keptOf_append]
  exact Twins.append hfst hsnd htwins ⟨rfl, .nil⟩

/-- The creates for a declaration are twins: they depend on twins. -/
theorem twins_createChange (h : Twins s.changes (keptOf s'.changes)) :
    Twins (s.changes ++ [c.createChange k scope d s])
      (keptOf (s'.changes ++ [c.createChange k scope d s'])) := by
  rw [keptOf_append]
  rcases hparent : c.parent? d with _ | p
  · obtain ⟨twins, hfst, hsnd, htwins⟩ := h
    refine Twins.append hfst hsnd htwins ⟨rfl, ?_⟩
    simp only [createChange, hparent]
    exact .nil
  · obtain ⟨twins, hfst, hsnd, htwins, hcreate⟩ := h.forall₂_createOf p.kind p.ref
    rw [find?_keptOf] at hcreate
    refine Twins.append hfst hsnd htwins ⟨rfl, ?_⟩
    simp only [createChange, hparent]
    split
    · exact hcreate
    · exact .nil

/-- A draft has a change for the kind and the reference of a declaration. -/
theorem any_eq_true_iff (s : Sketch) (k : KindPlanner) (scope : String) (d : Declaration) :
    (s.changes.any fun e => e.kind == k.kind && e.ref == d.ref) = true
      ↔ ∃ e ∈ s.changes, e.key = (Task.declared k scope d).key := by
  simp [Change.key, Task.key, Prod.ext_iff]

/-- A task for a declaration does nothing where there is a change for its kind and reference. -/
theorem eq_of_step_taken (hdeclared : t.isDeclared = true) (htaken : ∃ e ∈ s.changes, e.key = t.key)
    (hstep : c.step s t = .ok s₁) : s₁ = s := by
  rcases t with ⟨k, scope, d⟩ | ⟨k, scope, r⟩
  · rw [step, verdict, if_pos ((any_eq_true_iff s k scope d).mpr htaken)] at hstep
    exact (Except.ok.inj hstep).symm
  · exact absurd hdeclared (by simp [Task.isDeclared])

/-- **A task for a declaration does the same to twins** where there is no change for its kind and
reference. -/
theorem twins_of_step_free (h : Twins s.changes (keptOf s'.changes))
    (hdeclared : t.isDeclared = true) (hfree : ¬∃ e ∈ s.changes, e.key = t.key)
    (hfree' : ¬∃ e ∈ s'.changes, e.key = t.key)
    (hstep : c.step s t = .ok s₁) (hstep' : c.step s' t = .ok s₁') :
    Twins s₁.changes (keptOf s₁'.changes) := by
  rcases t with ⟨k, scope, d⟩ | ⟨k, scope, r⟩
  · rw [step, verdict, if_neg (mt (any_eq_true_iff s k scope d).mp hfree)] at hstep
    rw [step, verdict, if_neg (mt (any_eq_true_iff s' k scope d).mp hfree')] at hstep'
    rcases htarget : c.target k scope d with _ | r <;> rw [htarget] at hstep hstep'
    · dsimp only [createVerdict] at hstep hstep'
      split at hstep
      · exact absurd hstep (by simp [Sketch.record])
      · next hcomplete =>
        rw [hcomplete] at hstep'
        obtain rfl := Except.ok.inj hstep
        obtain rfl := Except.ok.inj hstep'
        exact twins_createChange h
    · dsimp only [updateVerdict] at hstep hstep'
      split at hstep
      · next hneeds =>
        rw [if_pos hneeds] at hstep'
        rcases hviolation : updateViolation? k.kind d.name r.isProtected
          (KindPlanner.flipFor d r) (k.compare d r).1 with _ | v <;>
          rw [hviolation] at hstep hstep' <;>
          obtain rfl := Except.ok.inj hstep <;>
          obtain rfl := Except.ok.inj hstep'
        · exact twins_updateChange h
        · exact h
      · next hneeds =>
        rw [if_neg hneeds] at hstep'
        obtain rfl := Except.ok.inj hstep
        obtain rfl := Except.ok.inj hstep'
        exact h
  · exact absurd hdeclared (by simp [Task.isDeclared])

/-- A task for a resource that nobody declares adds a delete, if anything. -/
theorem keptOf_of_step_orphan (horphan : t.isDeclared = false) (hstep : c.step s t = .ok s₁) :
    keptOf s₁.changes = keptOf s.changes
      ∧ ∀ e ∈ s₁.changes, e ∈ s.changes ∨ e.key = t.key := by
  refine ⟨?_, fun e he => mem_changes_of_step hstep he⟩
  rcases changes_step hstep with heq | ⟨e, hplanned, heq⟩
  · rw [heq]
  · rw [heq, keptOf_append]
    simp [keptOf, action_of_planned_orphan horphan hplanned]

/-- A task for a declaration adds no delete. -/
theorem delete_mem_of_step (hdeclared : t.isDeclared = true) (hstep : c.step s t = .ok s₁)
    (he : e ∈ s₁.changes) (hdelete : e.action = .delete) : e ∈ s.changes := by
  rcases changes_step hstep with heq | ⟨b, hplanned, heq⟩
  · exact heq ▸ he
  · rcases List.mem_append.mp (heq ▸ he) with he | he
    · exact he
    · obtain rfl := List.mem_singleton.mp he
      exact absurd hdelete (action_of_planned_declared hdeclared hplanned)

/-- A lawful task that adds no change to the draft leaves it as it is. -/
theorem changes_eq_of_forall_key_ne (hstep : c.step s t = .ok s₁)
    (hrest : s₁.changes ⊆ final.changes) (hkey : ∀ b ∈ final.changes, b.key ≠ t.key) :
    s₁.changes = s.changes := by
  rcases changes_step hstep with heq | ⟨e, hplanned, heq⟩
  · exact heq
  · have hmem : e ∈ final.changes :=
      hrest (heq ▸ List.mem_append_right _ (List.mem_singleton_self e))
    exact absurd (key_of_planned hplanned) (hkey e hmem)

/-! ## Runs -/

/-- **Tasks with deletes in between draft twins**, as long as no delete takes the kind and the
reference of a declaration behind it that has a change in the end. -/
theorem twins_of_run (h : Twins s.changes (keptOf s'.changes))
    (hrun : c.run (ts.filter Task.isDeclared) s = .ok final) (hrun' : c.run ts s' = .ok final')
    (hdeleted : ∀ e ∈ s'.changes, e.action = .delete → ∀ t ∈ ts, t.isDeclared = true →
      t.key = e.key → ∀ b ∈ final.changes, b.key ≠ t.key)
    (hfree : ts.Pairwise fun u t => u.Takes t → ∀ b ∈ final.changes, b.key ≠ t.key) :
    Twins final.changes (keptOf final'.changes) := by
  induction ts generalizing s s' with
  | nil =>
    obtain rfl := Except.ok.inj hrun
    obtain rfl := Except.ok.inj hrun'
    exact h
  | cons t rest ih =>
    obtain ⟨hahead, hbehind⟩ := List.pairwise_cons.mp hfree
    obtain ⟨s₁', hstep', hrest'⟩ := run_cons_ok hrun'
    rcases hdeclared : t.isDeclared with _ | _
    · rw [List.filter_cons_of_neg (by simp [hdeclared])] at hrun
      obtain ⟨hkept, hkeys⟩ := keptOf_of_step_orphan hdeclared hstep'
      refine ih (hkept ▸ h) hrun hrest' (fun e he hdelete u hu hdecl hkey => ?_) hbehind
      rcases hkeys e he with he | hsame
      · exact hdeleted e he hdelete u (.tail _ hu) hdecl hkey
      · exact hahead u hu ⟨hdeclared, hdecl, hkey.trans hsame⟩
    · rw [List.filter_cons_of_pos hdeclared] at hrun
      obtain ⟨s₁, hstep, hrest⟩ := run_cons_ok hrun
      have hdeleted₁ : ∀ e ∈ s₁'.changes, e.action = .delete → ∀ u ∈ rest, u.isDeclared = true →
          u.key = e.key → ∀ b ∈ final.changes, b.key ≠ u.key := fun e he hdelete u hu =>
        hdeleted e (delete_mem_of_step hdeclared hstep' he hdelete) hdelete u (.tail _ hu)
      refine ih ?_ hrest hrest' hdeleted₁ hbehind
      by_cases htaken' : ∃ e ∈ s'.changes, e.key = t.key
      · rw [eq_of_step_taken hdeclared htaken' hstep']
        obtain ⟨e, he, hkey⟩ := htaken'
        by_cases hdelete : e.action = .delete
        · -- the delete keeps the task from doing anything, and nothing is planned without it
          have hquiet := hdeleted e he hdelete t List.mem_cons_self hdeclared hkey.symm
          rwa [changes_eq_of_forall_key_ne hstep (subset_changes_of_run hrest) hquiet]
        · have hkept : e ∈ keptOf s'.changes := mem_keptOf.mpr ⟨he, hdelete⟩
          rwa [eq_of_step_taken hdeclared (h.exists_key_iff.mp ⟨e, hkept, hkey⟩) hstep]
      · refine twins_of_step_free h hdeclared (fun htaken => htaken' ?_) htaken' hstep hstep'
        obtain ⟨e, he, hkey⟩ := h.exists_key_iff.mpr htaken
        exact ⟨e, (mem_keptOf.mp he).1, hkey⟩

/-! ## Deletes that take a reference -/

/-- A lawful run has a change for every task that does nothing only where there is one already. -/
theorem exists_key_of_mem (hrun : c.run ts s = .ok final) (hlawful : final.violations = [])
    (ht : t ∈ ts)
    (hsettled : ∀ s, c.verdict s t = .settled → ∃ e ∈ s.changes, e.key = t.key) :
    ∃ e ∈ final.changes, e.key = t.key := by
  obtain ⟨before, behind, rfl⟩ := List.append_of_mem ht
  obtain ⟨s₁, -, hrest⟩ := run_append_ok hrun
  obtain ⟨s₂, hstep, hbehind⟩ := run_cons_ok hrest
  rcases step_cases hstep with ⟨hnothing, rfl⟩ | ⟨v, -, rfl⟩ | ⟨e, hplanned, rfl⟩
  · obtain ⟨e, he, hkey⟩ := hsettled s₂ hnothing
    exact ⟨e, subset_changes_of_run hbehind he, hkey⟩
  · exact absurd (violations_run hbehind hlawful) (by simp)
  · have hmem : e ∈ s₁.changes ++ [e] := List.mem_append_right _ (List.mem_singleton_self e)
    exact ⟨e, subset_changes_of_run hbehind hmem, key_of_planned hplanned⟩

/-- A lawful run has a change for every resource that nobody declares. -/
theorem exists_key_of_orphan_mem (hrun : c.run ts s = .ok final) (hlawful : final.violations = [])
    (ht : t ∈ ts) (horphan : t.isDeclared = false) : ∃ e ∈ final.changes, e.key = t.key := by
  refine exists_key_of_mem hrun hlawful ht fun s hsettled => ?_
  rcases t with ⟨k, scope, d⟩ | ⟨k, scope, r⟩
  · exact absurd horphan (by simp [Task.isDeclared])
  · exact absurd hsettled (Verdict.unless_ne_settled (by simp))

/-- What is kept of a run was planned for declarations. -/
theorem exists_declared_of_mem_kept (hrun : c.run ts s = .ok final)
    (he : e ∈ keptOf final.changes) :
    e ∈ keptOf s.changes ∨ ∃ t ∈ ts, t.isDeclared = true ∧ e.key = t.key := by
  obtain ⟨hmem, hkept⟩ := mem_keptOf.mp he
  rcases mem_changes_of_run hrun hmem with hbefore | ⟨t, ht, s₁, hplanned⟩
  · exact .inl (mem_keptOf.mpr ⟨hbefore, hkept⟩)
  · refine .inr ⟨t, ht, ?_, key_of_planned hplanned⟩
    rcases hdeclared : t.isDeclared with _ | _
    · exact absurd (action_of_planned_orphan hdeclared hplanned) hkept
    · rfl

/-- **A declaration whose kind and reference a delete before it takes has no create or update**, if
declarations are distinct. -/
theorem forall_key_ne_of_taken {u : Task} {before behind : List Task}
    (hnodup : (((before ++ t :: behind).filter Task.isDeclared).map Task.key).Nodup)
    (hrun : c.run (before ++ t :: behind) {} = .ok final) (hlawful : final.violations = [])
    (hu : u ∈ before) (htakes : u.Takes t) : ∀ b ∈ keptOf final.changes, b.key ≠ t.key := by
  obtain ⟨horphan, hdeclared, hkey⟩ := htakes
  rw [List.filter_append, List.filter_cons_of_pos hdeclared, List.map_append, List.map_cons,
    List.nodup_append, List.nodup_cons] at hnodup
  obtain ⟨-, ⟨hbehind, -⟩, hbefore⟩ := hnodup
  have hothers : ∀ t', t' ∈ before ∨ t' ∈ behind → t'.isDeclared = true → t'.key ≠ t.key := by
    rintro t' (ht' | ht') hdecl heq
    · have hmem := List.mem_map_of_mem (f := Task.key) (List.mem_filter.mpr ⟨ht', hdecl⟩)
      exact hbefore _ hmem _ List.mem_cons_self heq
    · exact hbehind (heq ▸ List.mem_map_of_mem (List.mem_filter.mpr ⟨ht', hdecl⟩))
  obtain ⟨s₁, hfirst, hrest⟩ := run_append_ok hrun
  obtain ⟨s₂, hstep, hlast⟩ := run_cons_ok hrest
  have htaken : ∃ e ∈ s₁.changes, e.key = t.key := by
    rw [hkey]
    exact exists_key_of_orphan_mem hfirst (violations_run hrest hlawful) hu horphan
  obtain rfl := eq_of_step_taken hdeclared htaken hstep
  intro b hb heq
  rcases exists_declared_of_mem_kept hlast hb with hb | ⟨t', ht', hdecl, hsame⟩
  · rcases exists_declared_of_mem_kept hfirst hb with hb | ⟨t', ht', hdecl, hsame⟩
    · exact absurd hb List.not_mem_nil
    · exact hothers t' (.inl ht') hdecl (hsame.symm.trans heq)
  · exact hothers t' (.inr ht') hdecl (hsame.symm.trans heq)

end Scene

end Reconcile
