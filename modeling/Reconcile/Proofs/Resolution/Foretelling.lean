import Reconcile.Proofs.Listings
import Reconcile.Proofs.Resolution.Effects

/-!
# Proofs/Resolution/Foretelling — when the listings that resolution asks for can be told beforehand

A snapshot that a faithful session asks answers as can be told beforehand (`answers_ofSnapshot`).
So does any provider where no question fails: what the session remembers in the end is what every
question has been answered with (`answers_of_listed`).  With a provider that never fails each
listing came moreover of one question, the first one for its kind (`Session.Accounted`).
-/

namespace Reconcile

/-! ## Snapshots -/

/-- The first managed resource of a kind with a name, in whichever namespace. -/
def Snapshot.look (snap : Snapshot) : Look := fun kind name =>
  if snap.covers kind then (snap.managedIn kind wildcard).find? fun r => r.name == name else none

/-- **A faithful session is answered with what the snapshot lists.** -/
theorem answers_ofSnapshot {snap : Snapshot} {kinds : List String} {session : Session}
    (hs : session.Faithful IsSingle snap) :
    Answers (.ofSnapshot snap) snap.look kinds session ∧
      (session.advance (.ofSnapshot snap) kinds).Faithful IsSingle snap := by
  induction kinds generalizing session with
  | nil => exact ⟨trivial, hs⟩
  | cons kind rest ih =>
    obtain ⟨session', hlist, hfaithful⟩ := Session.listAll_ofSnapshot distinguished_isSingle hs kind
    have hnext : (session.listAll (.ofSnapshot snap) kind).2 = session' := by rw [hlist]
    obtain ⟨hanswers, hend⟩ := ih hfaithful
    rw [Answers, hnext]
    refine ⟨⟨?_, hanswers⟩, ?_⟩
    · rw [hlist]
      rcases hcovers : snap.covers kind with _ | _
      · simp [Snapshot.list, hcovers, Tells, StateFault.isNotConfigured, Snapshot.look]
      · simp [Snapshot.list_singleton hcovers, Tells, Snapshot.look, hcovers]
    · rw [Session.advance, List.foldl_cons, hnext]
      exact hend

/-! ## What a session remembers -/

namespace Session

variable {p : Provider} {s : Session} {kind : String} {kinds : List String}

/-- The listing of all namespaces of a kind that is remembered. -/
def wildcardListing? (s : Session) (kind : String) : Option (List Resource) :=
  s.listings.byKey.lookup (kind, wildcard)

/-- The first resource of a kind with a name, as far as it is remembered. -/
def look (s : Session) : Look := fun kind name =>
  ((s.wildcardListing? kind).getD []).find? fun r => r.name == name

/-- **Asked for all namespaces of a kind**: a listing that is remembered answers; one that is not is
asked for and remembered, unless the provider fails. -/
theorem listAll_cases (p : Provider) (s : Session) (kind : String) :
    (∃ rs, s.wildcardListing? kind = some rs ∧ s.listAll p kind = (.ok rs, s))
    ∨ (∃ rs, s.wildcardListing? kind = none ∧ p.list s.asked kind [wildcard] = .ok rs
      ∧ s.listAll p kind = (.ok rs, ⟨s.asked ++ [.list kind [wildcard]],
        ⟨((kind, wildcard), rs) :: s.listings.byKey, (kind, rs) :: s.listings.all⟩⟩))
    ∨ ∃ e, p.list s.asked kind [wildcard] = .error e
      ∧ s.listAll p kind = (.error e, ⟨s.asked ++ [.list kind [wildcard]], s.listings⟩) := by
  have hlists := lists_list p s kind [wildcard]
  unfold listAll
  generalize s.list p kind [wildcard] = answer at hlists ⊢
  have hkeyed : ∀ {key}, listingKey? [wildcard] = some key → key = wildcard := fun hkey =>
    Option.some.inj (hkey.symm.trans listingKey?_wildcard)
  cases hlists with
  | nothing hkey => exact absurd (listingKey?_wildcard.symm.trans hkey) (by simp)
  | remembered hkey hlookup =>
    obtain rfl := hkeyed hkey
    exact .inl ⟨_, hlookup, rfl⟩
  | part hkey hnew hpart => exact absurd (hkeyed hkey) hpart
  | answered hkey hnew hall hlist =>
    obtain rfl := hkeyed hkey
    rw [normalizeNamespaces_wildcard] at hlist
    exact .inr (.inl ⟨_, Option.not_isSome_iff_eq_none.mp hnew, hlist, rfl⟩)
  | failed hkey hnew hall hlist =>
    rw [normalizeNamespaces_wildcard] at hlist
    exact .inr (.inr ⟨_, hlist, rfl⟩)

variable {other : String} {rs : List Resource}

/-- With one more listing, its kind has it, and the other kinds have theirs. -/
theorem wildcardListing?_cons (asked : List Query) (all : List (String × List Resource))
    (kind : String) (rs : List Resource) (s : Session) (other : String) :
    wildcardListing? ⟨asked, ⟨((kind, wildcard), rs) :: s.listings.byKey, all⟩⟩ other
      = if other = kind then some rs else s.wildcardListing? other := by
  unfold wildcardListing?
  rw [List.lookup_cons]
  by_cases hkind : other = kind
  · simp [hkind]
  · have hkey : ((other, wildcard) == (kind, wildcard)) = false := by simp [hkind]
    rw [hkey, if_neg hkind]

/-- A listing that is remembered is the answer. -/
theorem listAll_of_wildcardListing? (p : Provider) (h : s.wildcardListing? kind = some rs) :
    s.listAll p kind = (.ok rs, s) := by
  obtain ⟨rs', hlisting, hrun⟩ | ⟨_, hnone, -, -⟩ | ⟨e, -, hrun⟩ := listAll_cases p s kind
  · obtain rfl := Option.some.inj (hlisting.symm.trans h)
    exact hrun
  · exact absurd (hnone.symm.trans h) (by simp)
  · rw [wildcardListing?] at h
    simp [listAll, list, normalizeNamespaces_wildcard, namespacesKey_singleton, h] at hrun

/-- An answer is remembered. -/
theorem wildcardListing?_listAll_self (h : (s.listAll p kind).1 = .ok rs) :
    (s.listAll p kind).2.wildcardListing? kind = some rs := by
  obtain ⟨rs', hlisting, hrun⟩ | ⟨rs', -, -, hrun⟩ | ⟨e, -, hrun⟩ := listAll_cases p s kind
  · obtain rfl : rs' = rs := by
      rw [hrun] at h
      exact Except.ok.inj h
    rw [hrun, hlisting]
  · obtain rfl : rs' = rs := by
      rw [hrun] at h
      exact Except.ok.inj h
    rw [hrun, wildcardListing?_cons, if_pos rfl]
  · rw [hrun] at h
    exact absurd h (by simp)

/-- What is remembered stays. -/
theorem wildcardListing?_listAll (p : Provider) (kind : String)
    (h : s.wildcardListing? other = some rs) :
    (s.listAll p kind).2.wildcardListing? other = some rs := by
  obtain ⟨_, -, hrun⟩ | ⟨_, hnone, -, hrun⟩ | ⟨e, -, hrun⟩ := listAll_cases p s kind
  · rw [hrun, h]
  · have hne : other ≠ kind := by
      rintro rfl
      exact absurd (hnone.symm.trans h) (by simp)
    rw [hrun, wildcardListing?_cons, if_neg hne, h]
  · rw [hrun]
    exact h

theorem wildcardListing?_advance (p : Provider) (kinds : List String)
    (h : s.wildcardListing? other = some rs) :
    (s.advance p kinds).wildcardListing? other = some rs := by
  induction kinds generalizing s with
  | nil => exact h
  | cons kind rest ih => exact ih (wildcardListing?_listAll p kind h)

/-! ## Questions that are all answered -/

/-- Questions for all namespaces of kinds, one after the other, are all answered with a listing. -/
def Listed (p : Provider) : List String → Session → Prop
  | [], _ => True
  | kind :: rest, s => (∃ rs, (s.listAll p kind).1 = .ok rs) ∧ Listed p rest (s.listAll p kind).2

theorem listed_append {more : List String} : Listed p (kinds ++ more) s
    ↔ Listed p kinds s ∧ Listed p more (s.advance p kinds) := by
  induction kinds generalizing s with
  | nil => simp [Listed, advance]
  | cons kind rest ih =>
    rw [List.cons_append, Listed, Listed, ih, and_assoc]
    rfl

/-- Every kind that was asked for has its listing in the end. -/
theorem Listed.exists_wildcardListing? (h : Listed p kinds s) (hkind : kind ∈ kinds) :
    ∃ rs, (s.advance p kinds).wildcardListing? kind = some rs := by
  induction kinds generalizing s with
  | nil => exact absurd hkind List.not_mem_nil
  | cons first rest ih =>
    obtain ⟨⟨rs, hfirst⟩, hrest⟩ := h
    rcases List.mem_cons.mp hkind with rfl | hkind
    · exact ⟨rs, wildcardListing?_advance p rest (wildcardListing?_listAll_self hfirst)⟩
    · exact ih hrest hkind

end Session

/-- **Questions that are all answered are answered with what the session remembers in the end.** -/
theorem answers_of_listed {p : Provider} {kinds : List String} {session : Session}
    (h : Session.Listed p kinds session) :
    Answers p (session.advance p kinds).look kinds session := by
  induction kinds generalizing session with
  | nil => exact trivial
  | cons kind rest ih =>
    obtain ⟨⟨rs, hanswer⟩, hrest⟩ := h
    have hend : (session.advance p (kind :: rest)).wildcardListing? kind = some rs :=
      Session.wildcardListing?_advance p rest (Session.wildcardListing?_listAll_self hanswer)
    refine ⟨?_, ih hrest⟩
    rw [hanswer]
    intro name
    rw [Session.look, hend, Option.getD_some]

/-! ## Providers that never fail -/

/-- Every question for a listing is answered. -/
def Provider.NeverFails (p : Provider) : Prop :=
  ∀ asked kind namespaces, ∃ rs, p.list asked kind namespaces = .ok rs

namespace Session

variable {p : Provider} {s : Session}

theorem listed_of_neverFails (hp : p.NeverFails) (kinds : List String) (s : Session) :
    Listed p kinds s := by
  induction kinds generalizing s with
  | nil => exact trivial
  | cons kind rest ih =>
    refine ⟨?_, ih _⟩
    obtain ⟨rs, -, hrun⟩ | ⟨rs, -, -, hrun⟩ | ⟨e, herror, -⟩ := listAll_cases p s kind
    · exact ⟨rs, by rw [hrun]⟩
    · exact ⟨rs, by rw [hrun]⟩
    · obtain ⟨rs, hrs⟩ := hp s.asked kind [wildcard]
      exact absurd (hrs.symm.trans herror) (by simp)

/-- **Each remembered listing of all namespaces came of the first question for it.** -/
structure Accounted (p : Provider) (s : Session) : Prop where
  listed : ∀ kind rs, s.wildcardListing? kind = some rs → ∃ before after,
    s.asked = before ++ .list kind [wildcard] :: after ∧ .list kind [wildcard] ∉ before
      ∧ p.list before kind [wildcard] = .ok rs
  asked : ∀ kind, .list kind [wildcard] ∈ s.asked → (s.wildcardListing? kind).isSome = true

theorem accounted_start : Accounted p {} where
  listed := by simp [wildcardListing?]
  asked := by simp

theorem Accounted.listAll (hp : p.NeverFails) (h : s.Accounted p) (kind : String) :
    (s.listAll p kind).2.Accounted p := by
  obtain ⟨_, -, hrun⟩ | ⟨rs, hnone, hrs, hrun⟩ | ⟨e, herror, -⟩ := listAll_cases p s kind
  · rw [hrun]
    exact h
  -- the question is new: had it been asked before, its listing would be remembered
  · have hnew : Query.list kind [wildcard] ∉ s.asked := fun hasked => by
      have hsome := h.asked kind hasked
      rw [hnone] at hsome
      exact absurd hsome (by simp)
    rw [hrun]
    constructor
    · intro other rs' hlisting
      rw [wildcardListing?_cons] at hlisting
      split at hlisting
      · next hkind =>
        obtain rfl := Option.some.inj hlisting
        subst hkind
        exact ⟨s.asked, [], rfl, hnew, hrs⟩
      · obtain ⟨before, after, hasked, hfirst, hlist⟩ := h.listed other rs' hlisting
        exact ⟨before, after ++ [.list kind [wildcard]], by simp [hasked], hfirst, hlist⟩
    · intro other hasked
      rw [wildcardListing?_cons]
      split
      · rfl
      · next hkind =>
        have hbefore : Query.list other [wildcard] ∈ s.asked := by
          simpa [hkind] using hasked
        exact h.asked other hbefore
  · obtain ⟨rs, hrs⟩ := hp s.asked kind [wildcard]
    exact absurd (hrs.symm.trans herror) (by simp)

/-- **However many listings are asked for, each came of the first question for it.** -/
theorem Accounted.advance (hp : p.NeverFails) (h : s.Accounted p) (kinds : List String) :
    (s.advance p kinds).Accounted p := by
  induction kinds generalizing s with
  | nil => exact h
  | cons kind rest ih => exact ih (h.listAll hp kind)

end Session

/-- **Resolution from an empty session, with a provider that never fails**: every change has its own
effect, told from what is remembered in the end. -/
theorem resolveReferences_of_neverFails {p : Provider} (hp : p.NeverFails) {s : Surroundings}
    {changes : List Change} (hs : s.upcoming = upcomingOf changes) :
    ∃ session : Session, session.Accounted p
      ∧ (∀ look, ∀ kind ∈ (Resolution.batchEffect s look changes).lookUps,
        ∃ rs, session.wildcardListing? kind = some rs)
      ∧ (∀ look, session = ({} : Session).advance p (Resolution.batchEffect s look changes).lookUps)
      ∧ resolveReferences p s.index s.accessors changes {}
        = (.ok (Resolution.batchEffect s session.look changes).report,
          changes.map fun c => (Resolution.effectOf s session.look c).onChange c, session) := by
  let kinds := (Resolution.batchEffect s (fun _ _ => none) changes).lookUps
  have hkinds : ∀ look, (Resolution.batchEffect s look changes).lookUps = kinds := fun look =>
    Resolution.lookUps_batchEffect s look _ changes
  have hlisted := Session.listed_of_neverFails hp kinds {}
  have haccounted := Session.accounted_start.advance hp kinds
  have hremembered : ∀ kind ∈ kinds, ∃ rs,
      (({} : Session).advance p kinds).wildcardListing? kind = some rs :=
    fun kind hkind => hlisted.exists_wildcardListing? hkind
  have hanswers := answers_of_listed hlisted
  generalize hsession : ({} : Session).advance p kinds = session at haccounted hremembered hanswers
  refine ⟨session, haccounted, fun look => ?_, fun look => ?_, ?_⟩
  · rw [hkinds]
    exact hremembered
  · rw [hkinds, hsession]
  · rw [← hkinds session.look] at hanswers
    have hresolved := resolveReferences_eq hs hanswers
    rwa [hkinds, hsession] at hresolved

end Reconcile
