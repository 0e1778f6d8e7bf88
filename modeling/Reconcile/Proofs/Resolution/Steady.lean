import Reconcile.Proofs.Resolution.Foretelling

/-!
# Proofs/Resolution/Steady — resolution over a remote side that stands still

A provider is **steady** when it answers a question the same way whatever was asked before, and
fails at none.  What a session answers then stays the same behind any number of questions
(`Session.answersLike_advance`), so that all changes of a batch are resolved by one look-up
(`Session.lookOn`).  Main fact: `resolveReferences_of_steady`.
-/

namespace Reconcile

/-- **A provider that gives the same answer to the same question**, and never fails; a kind may at
most be unknown to it. -/
structure Provider.Steady (p : Provider) : Prop where
  same : ∀ asked asked' kind namespaces,
    p.list asked kind namespaces = p.list asked' kind namespaces
  answers : ∀ asked kind namespaces e, p.list asked kind namespaces = .error e →
    e.isNotConfigured = true

theorem steady_ofSnapshot (snap : Snapshot) : (Provider.ofSnapshot snap).Steady where
  same _ _ _ _ := rfl
  answers _ kind namespaces e he := by
    change snap.list kind namespaces = .error e at he
    unfold Snapshot.list at he
    split at he
    · exact Except.error.inj he ▸ rfl
    · exact absurd he nofun

namespace Session

variable {p : Provider} {s s' s'' : Session}

/-! ## Answers that stay the same -/

/-- The second session answers the questions for all namespaces as the first one does. -/
def AnswersLike (p : Provider) (s s' : Session) : Prop :=
  ∀ kind, (s'.listAll p kind).1 = (s.listAll p kind).1

theorem AnswersLike.refl (p : Provider) (s : Session) : s.AnswersLike p s := fun _ => rfl

theorem AnswersLike.trans (h : s.AnswersLike p s') (h' : s'.AnswersLike p s'') :
    s.AnswersLike p s'' := fun kind => (h' kind).trans (h kind)

/-- A session answers with the listing that it remembers, else with what the provider says. -/
theorem listAll_of_steady (hp : p.Steady) (s : Session) (kind : String) :
    (s.listAll p kind).1
      = (s.wildcardListing? kind).elim (p.list [] kind [wildcard]) Except.ok := by
  obtain ⟨rs, hlisting, hrun⟩ | ⟨rs, hnone, hlist, hrun⟩ | ⟨e, hlist, hrun⟩ :=
    listAll_cases p s kind
  · rw [hrun, hlisting]
    rfl
  · rw [hrun, hnone, Option.elim_none, hp.same [] s.asked, hlist]
  · rcases hlisting : s.wildcardListing? kind with _ | rs
    · rw [hrun, Option.elim_none, hp.same [] s.asked, hlist]
    · rw [listAll_of_wildcardListing? p hlisting]
      rfl

/-- **A question changes no answer.** -/
theorem answersLike_listAll (hp : p.Steady) (s : Session) (kind : String) :
    s.AnswersLike p (s.listAll p kind).2 := by
  intro other
  rw [listAll_of_steady hp, listAll_of_steady hp]
  obtain ⟨rs, -, hrun⟩ | ⟨rs, hnone, hlist, hrun⟩ | ⟨e, -, hrun⟩ := listAll_cases p s kind
  · rw [hrun]
  · rw [hrun, wildcardListing?_cons]
    split
    · next hkind =>
      rw [hkind, hnone, Option.elim_none, hp.same [] s.asked, hlist]
      rfl
    · rfl
  · rw [hrun]
    rfl

/-- **Nor do questions, one after the other.** -/
theorem answersLike_advance (hp : p.Steady) (s : Session) (kinds : List String) :
    s.AnswersLike p (s.advance p kinds) := by
  induction kinds generalizing s with
  | nil => exact .refl p s
  | cons kind rest ih => exact (answersLike_listAll hp s kind).trans (ih _)

/-! ## One look-up for all -/

/-- The first resource of a kind with a name, as the session answers. -/
def lookOn (p : Provider) (s : Session) : Look := fun kind name =>
  match (s.listAll p kind).1 with
  | .ok rs => rs.find? fun r => r.name == name
  | .error _ => none

/-- What a session answers is what is looked up. -/
theorem tells_lookOn (hp : p.Steady) (s : Session) (kind : String) :
    Tells (s.lookOn p kind) (s.listAll p kind).1 := by
  unfold lookOn
  rcases hanswer : (s.listAll p kind).1 with e | rs
  · refine ⟨?_, fun _ => rfl⟩
    obtain ⟨rs, -, hrun⟩ | ⟨rs, -, -, hrun⟩ | ⟨e', hlist, hrun⟩ := listAll_cases p s kind <;>
      rw [hrun] at hanswer
    · exact absurd hanswer nofun
    · exact absurd hanswer nofun
    · obtain rfl := Except.error.inj hanswer
      exact hp.answers _ _ _ _ hlist
  · exact fun _ => rfl

/-- **A session that answers alike is answered as the look-up says.** -/
theorem AnswersLike.answers (hp : p.Steady) (h : s.AnswersLike p s') (kinds : List String) :
    Answers p (s.lookOn p) kinds s' := by
  induction kinds generalizing s' with
  | nil => exact trivial
  | cons kind rest ih =>
    have htells := tells_lookOn hp s kind
    rw [← h kind] at htells
    exact ⟨htells, ih (h.trans (answersLike_listAll hp s' kind))⟩

end Session

/-- **Over a steady provider resolution gives every change its own effect**, by the look-up of any
session that answers like the one at hand. -/
theorem resolveReferences_of_steady {p : Provider} (hp : p.Steady) {s : Surroundings}
    {changes : List Change} (hs : s.upcoming = upcomingOf changes) {session session' : Session}
    (h : session.AnswersLike p session') :
    resolveReferences p s.index s.accessors changes session'
      = (.ok (Resolution.batchEffect s (session.lookOn p) changes).report,
        changes.map fun c => (Resolution.effectOf s (session.lookOn p) c).onChange c,
        session'.advance p (Resolution.batchEffect s (session.lookOn p) changes).lookUps) :=
  resolveReferences_eq hs (h.answers hp _)

/-! ## The creates of a batch -/

/-- What other changes of a batch may know a change by. -/
def Change.heading (c : Change) : String × Action × String × String :=
  (c.id, c.action, c.kind, c.ref)

/-- **Batches whose changes have the same headings have the same creates.** -/
theorem upcomingOf_congr {as bs : List Change}
    (h : as.map Change.heading = bs.map Change.heading) : upcomingOf as = upcomingOf bs := by
  have hread : ∀ changes : List Change, upcomingOf changes = (changes.map Change.heading).filterMap
      fun x => if x.2.1 == .create then some ⟨x.1, x.2.2.1, x.2.2.2⟩ else none := by
    intro changes
    rw [upcomingOf, ← List.filterMap_eq_map, List.filterMap_filter, List.filterMap_map]
    rfl
  rw [hread, hread, h]

end Reconcile
