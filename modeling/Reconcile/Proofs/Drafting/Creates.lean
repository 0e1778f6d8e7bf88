import Reconcile.Proofs.Drafting.Sketches
import Reconcile.Proofs.Resolution.Scalar
import Reconcile.Proofs.Resolution.Shuffles

/-!
# Proofs/Drafting/Creates — the creates of a draft, and what waits for them

A draft has one create at most for each kind and reference (`Scene.createsOnce_of_run`).  A change
of it depends at most on the create of its parent (`Sketch.Linked`), and where that was drafted
behind the change, or a look at the draft would have missed it, resolution makes the change wait for
it all the same.  Main fact: `Scene.anticipates_of_run`.
-/

namespace Reconcile

/-- **A change of a draft depends at most on the create of its parent**, where the parent has no
identifier yet. -/
def Sketch.Linked (s : Sketch) : Prop :=
  ∀ e ∈ s.changes, ∀ d ∈ e.dependsOn, e.action = .create ∧ ∃ p, e.parent = some p ∧ p.id = none
    ∧ ∃ b ∈ s.changes, b.creates p.kind p.ref = true ∧ b.id = d

/-- One more change that is no create, or the only one of its kind and reference. -/
theorem CreatesOnce.snoc {changes : List Change} (h : CreatesOnce changes) {e : Change}
    (hfresh : e.action = .create → ∀ b ∈ changes, b.key ≠ e.key) : CreatesOnce (changes ++ [e]) := by
  unfold CreatesOnce at h ⊢
  rw [List.filter_append, List.map_append]
  by_cases hcreate : e.action = .create
  · have hone : [e].filter (fun c => c.action == .create) = [e] := by simp [hcreate]
    rw [hone, List.map_singleton]
    refine List.nodup_append.mpr ⟨h, List.nodup_singleton _, fun key hkey key' hkey' heq => ?_⟩
    obtain ⟨b, hb, rfl⟩ := List.mem_map.mp hkey
    rw [List.mem_singleton.mp hkey'] at heq
    exact hfresh hcreate b (List.mem_filter.mp hb).1 heq
  · have hnone : [e].filter (fun c => c.action == .create) = [] := by simp [hcreate]
    rwa [hnone, List.map_nil, List.append_nil]

/-- Creates of one kind and reference are one change. -/
theorem CreatesOnce.eq_of_creates {changes : List Change} (h : CreatesOnce changes)
    {kind ref : String} {a b : Change} (ha : a ∈ changes) (hb : b ∈ changes)
    (hacreates : a.creates kind ref = true) (hbcreates : b.creates kind ref = true) : a = b := by
  simp only [Change.creates, Bool.and_eq_true, beq_iff_eq] at hacreates hbcreates
  obtain ⟨⟨haction, hkind⟩, href⟩ := hacreates
  obtain ⟨⟨hbaction, hbkind⟩, hbref⟩ := hbcreates
  refine List.inj_on_of_nodup_map h (List.mem_filter.mpr ⟨ha, by simp [haction]⟩)
    (List.mem_filter.mpr ⟨hb, by simp [hbaction]⟩) ?_
  rw [hkind, hbkind, href, hbref]

namespace Scene

variable {c : Scene} {s s' : Sketch} {t : Task} {ts : List Task} {e : Change}

/-! ## One create for each kind and reference -/

/-- A create or an update is planned only where there is no change of its kind and reference. -/
theorem key_ne_of_planned (h : c.verdict s t = .planned e) (hkept : e.action ≠ .delete) :
    ∀ b ∈ s.changes, b.key ≠ e.key := by
  rcases t with ⟨k, scope, d⟩ | ⟨k, scope, r⟩
  · intro b hb hkey
    have htaken : ∃ b ∈ s.changes, b.key = (Task.declared k scope d).key :=
      ⟨b, hb, hkey.trans (key_of_planned h)⟩
    rw [verdict, if_pos ((any_eq_true_iff s k scope d).mpr htaken)] at h
    exact absurd h (by simp)
  · exact absurd (action_of_planned_orphan rfl h) hkept

/-- **A draft has one create at most for each kind and reference.** -/
theorem createsOnce_of_run (h : c.run ts {} = .ok s) : CreatesOnce s.changes := by
  have hstart : CreatesOnce [] := List.nodup_nil
  refine run_induction (I := fun s => CreatesOnce s.changes) (fun t _ s₁ s₂ honce hstep => ?_)
    hstart h
  rcases changes_step hstep with heq | ⟨e, hplanned, heq⟩
  · exact heq ▸ honce
  · exact heq ▸ honce.snoc fun hcreate => key_ne_of_planned hplanned (by simp [hcreate])

/-! ## What waits for them -/

/-- A planned change depends at most on the create of its parent. -/
theorem linked_of_planned (h : c.verdict s t = .planned e) : ∀ d ∈ e.dependsOn,
    e.action = .create ∧ ∃ p, e.parent = some p ∧ p.id = none
      ∧ ∃ b ∈ s.changes, b.creates p.kind p.ref = true ∧ b.id = d := by
  intro id hid
  rcases planned_cases h with ⟨k, scope, d, r, -, -, -, -, rfl⟩ | ⟨k, scope, d, -, -, rfl⟩
    | ⟨k, scope, r, -, -, rfl⟩
  · exact absurd hid List.not_mem_nil
  · refine ⟨rfl, ?_⟩
    simp only [createChange] at hid ⊢
    rcases hparent : c.parent? d with _ | p <;> rw [hparent] at hid
    · exact absurd hid List.not_mem_nil
    · dsimp only at hid
      split at hid
      · next hnone =>
        obtain ⟨b, hb, rfl⟩ := Option.map_eq_some_iff.mp (Option.mem_toList.mp hid)
        have hcreates := List.find?_some hb
        exact ⟨p, rfl, Option.isNone_iff_eq_none.mp hnone, b, List.mem_of_find?_eq_some hb,
          hcreates, rfl⟩
      · exact absurd hid List.not_mem_nil
  · exact absurd hid List.not_mem_nil

theorem linked_of_run (h : c.run ts {} = .ok s) : s.Linked := by
  refine run_induction (I := Sketch.Linked) (fun t _ s₁ s₂ hlinked hstep => ?_)
    (fun e he => absurd he List.not_mem_nil) h
  rcases changes_step hstep with heq | ⟨e, hplanned, heq⟩
  · unfold Sketch.Linked
    rwa [heq]
  · have hmore : ∀ {d : String} {p : Parent},
        (∃ b ∈ s₁.changes, b.creates p.kind p.ref = true ∧ b.id = d) →
        ∃ b ∈ s₂.changes, b.creates p.kind p.ref = true ∧ b.id = d := fun ⟨b, hb, hcreates⟩ =>
      ⟨b, heq ▸ List.mem_append_left _ hb, hcreates⟩
    intro b hb d hd
    rw [heq] at hb
    rcases List.mem_append.mp hb with hb | hb
    · obtain ⟨haction, p, hp, hid, hcreate⟩ := hlinked b hb d hd
      exact ⟨haction, p, hp, hid, hmore hcreate⟩
    · obtain rfl := List.mem_singleton.mp hb
      obtain ⟨haction, p, hp, hid, hcreate⟩ := linked_of_planned hplanned d hd
      exact ⟨haction, p, hp, hid, hmore hcreate⟩

/-- **Resolution makes a change wait for the create of its parent**, wherever it is in the batch. -/
theorem mem_awaited_of_parent {changes : List Change} (honce : CreatesOnce changes) {b : Change}
    (haction : e.action ≠ .delete) {kind ref : String} (hparent : e.parent = some ⟨kind, ref, none⟩)
    (hb : b ∈ changes) (hcreates : b.creates kind ref = true) (hne : b.id ≠ e.id) :
    b.id ∈ (Resolution.effectOf (c.around (upcomingOf changes)) c.snapshot.look e).awaited := by
  have hfound : creatorOf? changes e.id kind ref = some b := by
    rcases hfind : creatorOf? changes e.id kind ref with _ | a
    · have hnot := List.find?_eq_none.mp hfind b hb
      exact absurd hnot (by simp [hcreates, hne])
    · have hpassed := List.find?_some hfind
      simp only [Bool.and_eq_true] at hpassed
      rw [honce.eq_of_creates (List.mem_of_find?_eq_some hfind) hb hpassed.1 hcreates]
  have hfind : ∃ name, (c.around (upcomingOf changes)).find c.snapshot.look e.id (some kind)
      (.toId ref) = .pending b.id name := by
    have htargets : (Reference.toId ref).targetsId = true :=
      (by decide : equalIgnoringCase idField idField = true)
    unfold Surroundings.find around
    rw [Resolution.examine_of_creator htargets hfound]
    exact ⟨_, rfl⟩
  obtain ⟨name, hfind⟩ := hfind
  have hparentEffect : b.id ∈ (Resolution.parentEffect (c.around (upcomingOf changes))
      c.snapshot.look e.id e.parent).awaited := by
    rw [hparent]
    simp only [Resolution.parentEffect, hfind]
    exact List.mem_singleton_self b.id
  rw [Resolution.effectOf, if_neg haction]
  exact List.mem_append_right _ hparentEffect

/-- **Whatever a change of a draft depends on, resolution makes it wait for.** -/
theorem anticipates_of_run (h : c.run ts {} = .ok s) (hnodup : (s.changes.map (·.id)).Nodup) :
    c.Anticipates s.changes := by
  intro e he d hd
  have htidy := (sound_of_run h).tidy hnodup he
  have hne : d ≠ e.id := fun heq => htidy.2 (heq ▸ hd)
  obtain ⟨hcreate, ⟨kind, ref, id⟩, hparent, hid, b, hb, hcreates, rfl⟩ := linked_of_run h e he d hd
  obtain rfl : id = none := hid
  refine ⟨hne, mem_awaited_of_parent (createsOnce_of_run h) ?_ hparent hb hcreates hne⟩
  rw [hcreate]
  exact fun heq => absurd heq (by simp)

end Scene

end Reconcile
