import Reconcile.Proofs.Resolution.Moments

/-!
# Proofs/Resolution/Answered — the question that a look-up was answered by

A listing that a session remembers came of the first question for it that was answered, if the
session began with none (`Session.Traced`).  A kind that the remote side does not know is asked for
time and again, and has no resources until a question is answered.  Main fact:
`exists_listedAs_of_told` — what is told on the way of a run is what such a question listed.
-/

namespace Reconcile

variable {p : Provider} {kind other : String} {asked : List Query} {rs : List Resource}

/-- No question for all namespaces of a kind was answered with a listing. -/
def Unanswered (p : Provider) (kind : String) (asked : List Query) : Prop :=
  ∀ before behind, asked = before ++ .list kind [wildcard] :: behind →
    ∀ rs, p.list before kind [wildcard] ≠ .ok rs

/-- **The resources of a kind are listed by a question for all namespaces** behind none that was
answered: it is answered with them, or the kind is not known and there are none. -/
def ListedAs (p : Provider) (asked : List Query) (kind : String) (rs : List Resource) : Prop :=
  ∃ before behind, asked = before ++ .list kind [wildcard] :: behind ∧ Unanswered p kind before
    ∧ (p.list before kind [wildcard] = .ok rs
      ∨ rs = [] ∧ ∃ e, p.list before kind [wildcard] = .error e ∧ e.isNotConfigured = true)

theorem unanswered_nil : Unanswered p kind [] := fun _ _ hasked =>
  absurd hasked (by simp)

/-- One more question changes nothing unless it is answered. -/
theorem Unanswered.snoc (h : Unanswered p kind asked) {q : Query}
    (hq : q = .list kind [wildcard] → ∀ rs, p.list asked kind [wildcard] ≠ .ok rs) :
    Unanswered p kind (asked ++ [q]) := by
  intro before behind hasked
  rcases List.eq_nil_or_concat behind with rfl | ⟨behind, last, rfl⟩
  · obtain ⟨rfl, hlast⟩ := List.append_inj' hasked rfl
    exact hq (List.singleton_inj.mp hlast)
  · have hsnoc : asked ++ [q] = (before ++ .list kind [wildcard] :: behind) ++ [last] := by
      rw [hasked, List.concat_eq_append, List.append_assoc, List.cons_append]
    exact h before behind (List.append_inj' hsnoc rfl).1

theorem ListedAs.append (h : ListedAs p asked kind rs) (more : List Query) :
    ListedAs p (asked ++ more) kind rs := by
  obtain ⟨before, behind, rfl, hfirst, hlist⟩ := h
  exact ⟨before, behind ++ more, by simp, hfirst, hlist⟩

namespace Session

variable {s s' : Session} {look : Look}

/-- **What a session remembers came of the first question that was answered**, and of what it does
not remember none was. -/
structure Traced (p : Provider) (s : Session) : Prop where
  listed : ∀ kind rs, s.wildcardListing? kind = some rs → ListedAs p s.asked kind rs
  unlisted : ∀ kind, s.wildcardListing? kind = none → Unanswered p kind s.asked

theorem traced_start : Traced p {} where
  listed := by simp [wildcardListing?]
  unlisted _ _ := unanswered_nil

theorem Traced.listAll (h : s.Traced p) (kind : String) : (s.listAll p kind).2.Traced p := by
  obtain ⟨_, -, hrun⟩ | ⟨rs, hnone, hlist, hrun⟩ | ⟨e, hlist, hrun⟩ := listAll_cases p s kind <;>
    rw [hrun]
  · exact h
  · constructor
    · intro other rs' hlisting
      rw [wildcardListing?_cons] at hlisting
      split at hlisting
      · next hkind =>
        obtain rfl := Option.some.inj hlisting
        subst hkind
        exact ⟨s.asked, [], rfl, h.unlisted _ hnone, .inl hlist⟩
      · exact (h.listed other rs' hlisting).append _
    · intro other hlisting
      rw [wildcardListing?_cons] at hlisting
      split at hlisting
      · exact absurd hlisting (by simp)
      · next hkind =>
        exact (h.unlisted other hlisting).snoc fun hq => absurd (Query.list.inj hq).1.symm hkind
  · constructor
    · intro other rs' hlisting
      exact (h.listed other rs' hlisting).append _
    · intro other hlisting
      refine (h.unlisted other hlisting).snoc fun hq rs' => ?_
      obtain rfl := (Query.list.inj hq).1
      rw [hlist]
      simp

theorem Traced.advance (h : s.Traced p) (kinds : List String) : (s.advance p kinds).Traced p := by
  induction kinds generalizing s with
  | nil => exact h
  | cons kind rest ih => exact ih (h.listAll kind)

/-- Questions are only added. -/
theorem exists_asked_advance (p : Provider) (s : Session) (kinds : List String) :
    ∃ more, (s.advance p kinds).asked = s.asked ++ more := by
  induction kinds generalizing s with
  | nil => exact ⟨[], (List.append_nil _).symm⟩
  | cons kind rest ih =>
    obtain ⟨more, hmore⟩ := ih (s.listAll p kind).2
    have hfirst : ∃ first, (s.listAll p kind).2.asked = s.asked ++ first := by
      obtain ⟨_, -, hrun⟩ | ⟨_, -, -, hrun⟩ | ⟨_, -, hrun⟩ := listAll_cases p s kind <;> rw [hrun]
      · exact ⟨[], (List.append_nil _).symm⟩
      · exact ⟨_, rfl⟩
      · exact ⟨_, rfl⟩
    obtain ⟨first, hfirst⟩ := hfirst
    rw [hfirst, List.append_assoc] at hmore
    exact ⟨first ++ more, hmore⟩

/-- **What a session answers is what a question listed.** -/
theorem Traced.exists_listedAs (hp : p.Serves) (h : s.Traced p) (kind : String) :
    ∃ rs, ListedAs p (s.advance p [kind]).asked kind rs
      ∧ ∀ name, s.lookOn p kind name = rs.find? fun x => x.name == name := by
  have hsession : s.advance p [kind] = (s.listAll p kind).2 := rfl
  rw [hsession]
  unfold lookOn
  obtain ⟨rs, hlisting, hrun⟩ | ⟨rs, hnone, hlist, hrun⟩ | ⟨e, hlist, hrun⟩ :=
    listAll_cases p s kind
  · rw [hrun]
    exact ⟨rs, h.listed kind rs hlisting, fun _ => rfl⟩
  · rw [hrun]
    exact ⟨rs, ⟨s.asked, [], rfl, h.unlisted kind hnone, .inl hlist⟩, fun _ => rfl⟩
  · have hnone : s.wildcardListing? kind = none := by
      rcases hlisting : s.wildcardListing? kind with _ | rs
      · rfl
      · rw [listAll_of_wildcardListing? p hlisting] at hrun
        exact absurd (Prod.mk.inj hrun).1 (by simp)
    rw [hrun]
    exact ⟨[], ⟨s.asked, [], rfl, h.unlisted kind hnone, .inr ⟨rfl, e, hlist, hp _ _ _ _ hlist⟩⟩,
      fun _ => rfl⟩

end Session

/-- **What is told on the way of a run is what a question listed.** -/
theorem exists_listedAs_of_told {s s' : Session} {look : Look} (hp : p.Serves) (hs : s.Traced p)
    (h : s.Told p s' [kind] look) : ∃ rs, ListedAs p s'.asked kind rs
      ∧ ∀ name, look kind name = rs.find? fun x => x.name == name := by
  obtain ⟨_, ⟨kinds, rfl⟩, ⟨more, rfl⟩, rfl⟩ := h
  obtain ⟨rs, hlisted, hlook⟩ := (hs.advance kinds).exists_listedAs hp kind
  obtain ⟨later, hlater⟩ :=
    Session.exists_asked_advance p ((s.advance p kinds).advance p [kind]) more
  exact ⟨rs, hlater ▸ hlisted.append later, hlook⟩

end Reconcile
