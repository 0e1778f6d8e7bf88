import Reconcile.Proofs.ChangeId
import Reconcile.Proofs.Drafting.Tasks
import Reconcile.Proofs.Resolution.Changes

/-!
# Proofs/Drafting/Sketches — what holds of every change of a draft

Every change of a draft has an identifier that tells its action, kind and reference, knows of no
references yet, and depends at most on one change before it (`Sketch.Sound`).  Main fact:
`Scene.sound_of_run`.
-/

namespace Reconcile

/-- The identifier of a change tells its action, kind and reference. -/
def Change.Numbered (e : Change) : Prop := ∃ n, e.id = (ChangeId.mk n e.action e.kind e.ref).text

/-- **What holds of every change of a draft.** -/
structure Sketch.Sound (s : Sketch) : Prop where
  numbered : ∀ e ∈ s.changes, e.Numbered
  plain : ∀ e ∈ s.changes, Resolution.Plain e
  single : ∀ e ∈ s.changes, e.dependsOn.length ≤ 1
  backward : ∀ (i : Nat) e, s.changes[i]? = some e → ∀ d ∈ e.dependsOn,
    ∃ j < i, ∃ b, s.changes[j]? = some b ∧ b.id = d

/-- Where identifiers are distinct, the changes of a draft are tidy. -/
theorem Sketch.Sound.tidy {s : Sketch} (h : s.Sound) (hnodup : (s.changes.map (·.id)).Nodup)
    {e : Change} (he : e ∈ s.changes) : e.Tidy := by
  refine ⟨?_, fun hself => ?_⟩
  · rcases hdeps : e.dependsOn with _ | ⟨d, _ | ⟨d', rest⟩⟩
    · exact List.nodup_nil
    · exact List.nodup_singleton d
    · have hsingle := h.single e he
      rw [hdeps] at hsingle
      exact absurd hsingle (by simp)
  · obtain ⟨i, hi⟩ := List.mem_iff_getElem?.mp he
    obtain ⟨j, hlt, b, hj, hid⟩ := h.backward i e hi e.id hself
    exact absurd (place_eq_of_nodup_map hnodup hj hi hid) hlt.ne

namespace Scene

variable {c : Scene} {s s' : Sketch} {t : Task} {e : Change}

/-! ## One task -/

/-- A planned change has the next identifier. -/
theorem id_of_planned (h : c.verdict s t = .planned e) :
    e.id = freshId s.issued e.action e.kind e.ref := by
  rcases planned_cases h with ⟨k, scope, d, r, -, -, -, -, rfl⟩ | ⟨k, scope, d, -, -, rfl⟩
    | ⟨k, scope, r, -, -, rfl⟩
  · rfl
  · rfl
  · rfl

theorem numbered_of_planned (h : c.verdict s t = .planned e) : e.Numbered :=
  ⟨_, id_of_planned h⟩

theorem plain_of_planned (h : c.verdict s t = .planned e) : Resolution.Plain e := by
  rcases planned_cases h with ⟨k, scope, d, r, -, -, -, -, rfl⟩ | ⟨k, scope, d, -, -, rfl⟩
    | ⟨k, scope, r, -, -, rfl⟩
  · exact ⟨rfl, fun hdelete => absurd hdelete (by simp [updateChange])⟩
  · exact ⟨rfl, fun hdelete => absurd hdelete (by simp [createChange])⟩
  · exact ⟨rfl, fun _ => rfl⟩

/-- A planned change depends at most on one change of the draft. -/
theorem dependsOn_of_planned (h : c.verdict s t = .planned e) : e.dependsOn.length ≤ 1
    ∧ ∀ d ∈ e.dependsOn, ∃ b ∈ s.changes, b.id = d := by
  rcases planned_cases h with ⟨k, scope, d, r, -, -, -, -, rfl⟩ | ⟨k, scope, d, -, -, rfl⟩
    | ⟨k, scope, r, -, -, rfl⟩
  · exact ⟨by simp [updateChange], fun d hd => absurd hd (by simp [updateChange])⟩
  · simp only [createChange]
    split
    · next p _ =>
      split
      · rcases hfind : s.changes.find? fun b => b.creates p.kind p.ref with _ | b <;> rw [hfind]
        · simp
        · refine ⟨by simp, fun d hd => ⟨b, List.mem_of_find?_eq_some hfind, ?_⟩⟩
          exact (List.mem_singleton.mp hd).symm
      · simp
    · simp
  · exact ⟨by simp [deleteChange], fun d hd => absurd hd (by simp [deleteChange])⟩

/-! ## A run -/

theorem sound_step (hs : s.Sound) (h : c.step s t = .ok s') : s'.Sound := by
  rcases changes_step h with heq | ⟨e, hplanned, heq⟩
  · exact ⟨heq ▸ hs.numbered, heq ▸ hs.plain, heq ▸ hs.single, heq ▸ hs.backward⟩
  · obtain ⟨hsingle, hdeps⟩ := dependsOn_of_planned hplanned
    refine ⟨?_, ?_, ?_, fun i b hb d hd => ?_⟩
    · rw [heq]
      exact List.forall_mem_append.mpr ⟨hs.numbered, by simpa using numbered_of_planned hplanned⟩
    · rw [heq]
      exact List.forall_mem_append.mpr ⟨hs.plain, by simpa using plain_of_planned hplanned⟩
    · rw [heq]
      exact List.forall_mem_append.mpr ⟨hs.single, by simpa using hsingle⟩
    · rw [heq] at hb ⊢
      -- a change from before keeps its place, and the new one comes behind all of them
      rcases Nat.lt_or_ge i s.changes.length with hlt | hge
      · rw [List.getElem?_append_left hlt] at hb
        obtain ⟨j, hji, b', hb', hid⟩ := hs.backward i b hb d hd
        refine ⟨j, hji, b', ?_, hid⟩
        rwa [List.getElem?_append_left (hji.trans hlt)]
      · rw [List.getElem?_append_right hge] at hb
        obtain rfl : b = e := by
          simpa using (List.mem_of_getElem? hb)
        obtain ⟨b', hmem, hid⟩ := hdeps d hd
        obtain ⟨j, hj⟩ := List.mem_iff_getElem?.mp hmem
        have hjlt := (List.getElem?_eq_some_iff.mp hj).1
        refine ⟨j, hjlt.trans_le hge, b', ?_, hid⟩
        rwa [List.getElem?_append_left hjlt]

/-- **Every draft is sound.** -/
theorem sound_of_run {ts : List Task} (h : c.run ts {} = .ok s) : s.Sound :=
  run_induction (I := Sketch.Sound) (fun _ _ _ _ hs hstep => sound_step hs hstep)
    ⟨by simp, by simp, by simp, by simp⟩ h

end Scene

end Reconcile
