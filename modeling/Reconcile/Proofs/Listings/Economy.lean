import Reconcile.Proofs.Listings.Transparency

/-!
# Proofs/Listings/Economy — how often the remote side is asked

A listing that is not remembered, and not part of one that is, is asked for, and remembered if it is
answered.  Whatever the remote side answers, and however its answers change, a session that began
with nothing is sparing (`Session.Sparing`): each listing is answered once, none of a kind is asked
for behind the one of all its namespaces (`Session.Frugal`), and a failure changes nothing that is
remembered.  Main fact: `Session.sparing_after`.
-/

namespace Reconcile

namespace Session

/-! ## What has been answered -/

section Answered

variable {p : Provider} {asked : List Query} {s : Session} {kind kind' key key' : String}
  {namespaces : List String} {rs : List Resource} {i j : Nat}

/-- At this place among the questions the remote side was asked for a listing, and answered. -/
def AnsweredAt (p : Provider) (asked : List Query) (kind key : String) (i : Nat) : Prop :=
  ∃ normalized rs, asked[i]? = some (.list kind normalized) ∧ namespacesKey normalized = key
    ∧ p.list (asked.take i) kind normalized = .ok rs

theorem AnsweredAt.lt_length (h : AnsweredAt p asked kind key i) : i < asked.length := by
  obtain ⟨_, _, hget, _⟩ := h
  exact (List.getElem?_eq_some_iff.mp hget).1

theorem answeredAt_append_of_lt (q : Query) (h : i < asked.length) :
    AnsweredAt p (asked ++ [q]) kind key i ↔ AnsweredAt p asked kind key i := by
  simp only [AnsweredAt, List.getElem?_append_left h, List.take_append_of_le_length h.le]

/-- One more question is answered at the end, or not at all. -/
theorem answeredAt_append {q : Query} : AnsweredAt p (asked ++ [q]) kind key i
    ↔ AnsweredAt p asked kind key i
      ∨ i = asked.length ∧ AnsweredAt p (asked ++ [q]) kind key asked.length := by
  constructor
  · intro h
    rcases Nat.lt_succ_iff_lt_or_eq.mp (by simpa using h.lt_length) with hlt | rfl
    · exact .inl ((answeredAt_append_of_lt q hlt).mp h)
    · exact .inr ⟨rfl, h⟩
  · rintro (h | ⟨rfl, h⟩)
    · exact (answeredAt_append_of_lt q h.lt_length).mpr h
    · exact h

theorem answeredAt_length {n : List String} :
    AnsweredAt p (asked ++ [.list kind n]) kind' key' asked.length
      ↔ kind' = kind ∧ key' = namespacesKey n ∧ ∃ rs, p.list asked kind n = .ok rs := by
  simp only [AnsweredAt, List.getElem?_concat_length, List.take_left, Option.some.injEq,
    Query.list.injEq]
  constructor
  · rintro ⟨_, rs, ⟨rfl, rfl⟩, rfl, hlist⟩
    exact ⟨rfl, rfl, rs, hlist⟩
  · rintro ⟨rfl, rfl, rs, hlist⟩
    exact ⟨n, rs, ⟨rfl, rfl⟩, rfl, hlist⟩

/-- **A frugal log**: there is one answer at most for each kind and key, nothing of a kind is asked
for behind the listing of all its namespaces, and never an empty list. -/
structure Frugal (p : Provider) (asked : List Query) : Prop where
  once {kind key : String} {i j : Nat} (hi : AnsweredAt p asked kind key i)
    (hj : AnsweredAt p asked kind key j) : i = j
  quiet {kind : String} {i j : Nat} {n : List String} (hi : AnsweredAt p asked kind wildcard i)
    (hj : asked[j]? = some (.list kind n)) : j ≤ i
  some_namespace {kind : String} {n : List String} (hmem : .list kind n ∈ asked) : n ≠ []

theorem frugal_nil (p : Provider) : Frugal p [] where
  once hi := absurd hi.lt_length (by simp)
  quiet hi := absurd hi.lt_length (by simp)
  some_namespace hmem := absurd hmem (by simp)

/-- **What has no answer yet can be asked for.** -/
theorem Frugal.append (h : Frugal p asked) {n : List String} (hn : n ≠ [])
    (hfresh : ∀ i, ¬AnsweredAt p asked kind (namespacesKey n) i)
    (hfreshAll : ∀ i, ¬AnsweredAt p asked kind wildcard i) :
    Frugal p (asked ++ [.list kind n]) := by
  constructor
  case once =>
    intro kind' key' i j hi hj
    rcases answeredAt_append.mp hi with hold | ⟨rfl, hlast⟩ <;>
      rcases answeredAt_append.mp hj with hold' | ⟨rfl, hlast'⟩
    · exact h.once hold hold'
    · obtain ⟨rfl, rfl, -⟩ := answeredAt_length.mp hlast'
      exact absurd hold (hfresh i)
    · obtain ⟨rfl, rfl, -⟩ := answeredAt_length.mp hlast
      exact absurd hold' (hfresh j)
    · rfl
  case quiet =>
    intro kind' i j m hi hj
    have hlt : j < asked.length + 1 := by simpa using (List.getElem?_eq_some_iff.mp hj).1
    rcases answeredAt_append.mp hi with hold | ⟨rfl, -⟩
    · rcases Nat.lt_succ_iff_lt_or_eq.mp hlt with hlt | rfl
      · exact h.quiet hold (List.getElem?_append_left hlt ▸ hj)
      · rw [List.getElem?_concat_length, Option.some.injEq, Query.list.injEq] at hj
        obtain ⟨rfl, -⟩ := hj
        exact absurd hold (hfreshAll i)
    · exact Nat.le_of_lt_succ hlt
  case some_namespace =>
    intro kind' m hmem
    rcases List.mem_append.mp hmem with hmem | hmem
    · exact h.some_namespace hmem
    · obtain ⟨rfl, rfl⟩ := Query.list.injEq .. ▸ List.mem_singleton.mp hmem
      exact hn

end Answered

/-! ## What is remembered of the answers -/

section Booked

variable {p : Provider} {s : Session} {kind kind' key key' : String} {namespaces : List String}
  {rs : List Resource} {i j : Nat}

theorem remembers_rememberPart : (s.rememberPart kind key rs).Remembers kind' key'
    ↔ (kind', key') = (kind, key) ∨ s.Remembers kind' key' := by
  simp only [Remembers, rememberPart, List.lookup_cons]
  split <;> simp_all

theorem remembers_remember : (s.remember kind key rs).Remembers kind' key'
    ↔ (kind', key') = (kind, key) ∨ s.Remembers kind' key' :=
  remembers_rememberPart

theorem remembersAll_remember : (s.remember kind key rs).RemembersAll kind'
    ↔ (kind', wildcard) = (kind, key) ∨ s.RemembersAll kind' := by
  simp only [RemembersAll, remember]
  split
  · next h =>
    simp only [List.lookup_cons, h]
    split <;> simp_all
  · next h => simp [Ne.symm h]

/-- **What is remembered goes back to what was answered**: the log is frugal, each answer is
remembered, and what is remembered is an answer or part of one. -/
structure Booked (p : Provider) (s : Session) : Prop where
  log : Frugal p s.asked
  remembers : ∀ {kind key i}, AnsweredAt p s.asked kind key i → s.Remembers kind key
  answered : ∀ {kind key}, s.Remembers kind key →
    ∃ i, AnsweredAt p s.asked kind key i ∨ AnsweredAt p s.asked kind wildcard i
  all : ∀ {kind}, s.RemembersAll kind ↔ ∃ i, AnsweredAt p s.asked kind wildcard i

theorem booked_start (p : Provider) : Booked p {} where
  log := frugal_nil p
  remembers h := absurd h.lt_length (by simp)
  answered h := absurd h (by simp [Remembers])
  all := ⟨fun h => absurd h (by simp [RemembersAll]), fun ⟨_, h⟩ => absurd h.lt_length (by simp)⟩

/-- What is asked for has not been answered, nor has the listing of all namespaces. -/
theorem Booked.not_answeredAt (h : s.Booked p) (hnew : ¬s.Remembers kind key)
    (hall : key = wildcard ∨ ¬s.RemembersAll kind) :
    (∀ i, ¬AnsweredAt p s.asked kind key i) ∧ ∀ i, ¬AnsweredAt p s.asked kind wildcard i := by
  refine ⟨fun i hi => hnew (h.remembers hi), fun i hi => ?_⟩
  rcases hall with rfl | hall
  · exact hnew (h.remembers hi)
  · exact hall (h.all.mpr ⟨i, hi⟩)

/-- **Asking keeps the books**, where the answer is remembered if there is one. -/
theorem Booked.ask {t : Session} (h : s.Booked p) (hkey : listingKey? namespaces = some key)
    (hnew : ¬s.Remembers kind key) (hall : key = wildcard ∨ ¬s.RemembersAll kind)
    (hasked : t.asked = s.asked ++ [.list kind (normalizeNamespaces namespaces)])
    (hremembers : ∀ kind' key', t.Remembers kind' key'
      ↔ AnsweredAt p t.asked kind' key' s.asked.length ∨ s.Remembers kind' key')
    (hremembersAll : ∀ kind', t.RemembersAll kind'
      ↔ AnsweredAt p t.asked kind' wildcard s.asked.length ∨ s.RemembersAll kind') :
    t.Booked p := by
  obtain ⟨hfresh, hfreshAll⟩ := h.not_answeredAt hnew hall
  have hn : normalizeNamespaces namespaces ≠ [] := fun hempty => by
    simp [listingKey?_eq_none_iff.mpr hempty] at hkey
  have hanswered : ∀ {kind' key' i}, AnsweredAt p t.asked kind' key' i
      ↔ AnsweredAt p s.asked kind' key' i
        ∨ i = s.asked.length ∧ AnsweredAt p t.asked kind' key' s.asked.length := by
    rw [hasked]
    exact answeredAt_append
  constructor
  case log =>
    rw [hasked]
    exact h.log.append hn (namespacesKey_of_listingKey? hkey ▸ hfresh) hfreshAll
  case remembers =>
    intro kind' key' i hi
    rcases hanswered.mp hi with hi | ⟨rfl, hi⟩
    · exact (hremembers _ _).mpr (.inr (h.remembers hi))
    · exact (hremembers _ _).mpr (.inl hi)
  case answered =>
    intro kind' key' hremembered
    rcases (hremembers _ _).mp hremembered with hlast | hremembered
    · exact ⟨_, .inl hlast⟩
    · obtain ⟨i, hi⟩ := h.answered hremembered
      exact ⟨i, hi.imp (hanswered.mpr <| .inl ·) (hanswered.mpr <| .inl ·)⟩
  case all =>
    intro kind'
    rw [hremembersAll, h.all]
    constructor
    · rintro (hlast | ⟨i, hi⟩)
      · exact ⟨_, hlast⟩
      · exact ⟨i, hanswered.mpr (.inl hi)⟩
    · rintro ⟨i, hi⟩
      rcases hanswered.mp hi with hi | ⟨-, hlast⟩
      · exact .inr ⟨i, hi⟩
      · exact .inl hlast

/-- **A listing keeps the books.** -/
theorem Booked.list (h : s.Booked p) (kind : String) (namespaces : List String) :
    (s.list p kind namespaces).2.Booked p := by
  have hlists := lists_list p s kind namespaces
  generalize s.list p kind namespaces = answer at hlists
  cases hlists with
  | nothing hkey => exact h
  | remembered hkey hlookup => exact h
  | part hkey hnew hpart hlookup =>
    have hall : s.RemembersAll kind := remembersAll_of_lookup hlookup
    exact {
      log := h.log
      remembers := fun hi => remembers_rememberPart.mpr (.inr (h.remembers hi))
      answered := fun hremembered => by
        rcases remembers_rememberPart.mp hremembered with heq | hremembered
        · obtain ⟨rfl, rfl⟩ := Prod.mk.inj heq
          exact (h.all.mp hall).imp fun _ => .inr
        · exact h.answered hremembered
      all := h.all }
  | @answered key rs hkey hnew hall hlist =>
    have hlast : ∀ kind' key', AnsweredAt p (s.asking kind namespaces).asked kind' key'
        s.asked.length ↔ (kind', key') = (kind, key) := by
      intro kind' key'
      rw [asking, answeredAt_length, namespacesKey_of_listingKey? hkey, Prod.mk.injEq]
      exact and_congr_right fun _ => and_iff_left ⟨rs, hlist⟩
    refine h.ask hkey hnew hall rfl (fun kind' key' => ?_) (fun kind' => ?_)
    · exact remembers_remember.trans (or_congr_left (hlast kind' key').symm)
    · exact remembersAll_remember.trans (or_congr_left (hlast kind' wildcard).symm)
  | @failed key e hkey hnew hall hlist =>
    have hlast : ∀ kind' key', ¬AnsweredAt p (s.asking kind namespaces).asked kind' key'
        s.asked.length := by
      intro kind' key' hi
      obtain ⟨-, -, rs, hok⟩ := answeredAt_length.mp hi
      exact absurd (hok.symm.trans hlist) (by simp)
    refine h.ask hkey hnew hall rfl (fun kind' key' => ?_) (fun kind' => ?_)
    · exact (or_iff_right (hlast kind' key')).symm
    · exact (or_iff_right (hlast kind' wildcard)).symm

end Booked

end Session

/-! ## Questions -/

namespace Inquiry

/-- The kind a question is about. -/
def kind : Inquiry → String
  | .list kind _ | .listAll kind | .findByName kind _ => kind

/-- The namespaces a question is about. -/
def namespaces : Inquiry → List String
  | .list _ namespaces => namespaces
  | .listAll _ | .findByName _ _ => [wildcard]

end Inquiry

/-- There is no answer. -/
def Reply.IsFailure : Reply → Prop
  | .listing answer => ∃ e, answer = .error e
  | .resource answer => ∃ e, answer = .error e

namespace Session

variable {p : Provider} {s : Session} {q : Inquiry}

/-- The session once questions have been answered, one after the other. -/
def after (p : Provider) (qs : List Inquiry) (s : Session) : Session :=
  qs.foldl (fun s q => (s.reply p q).2) s

/-- The remote side is asked when this question is answered. -/
def Reaches (p : Provider) (s : Session) (q : Inquiry) : Prop :=
  (s.reply p q).2.asked = s.asked ++ [.list q.kind (normalizeNamespaces q.namespaces)]

/-- **Sparing**: the log is frugal, a question reaches the remote side exactly if there is no answer
yet that has it, and asks nothing otherwise; a failure is not remembered, so that the question reaches
the remote side again. -/
structure Sparing (p : Provider) (s : Session) : Prop where
  log : Frugal p s.asked
  reaches_iff (q : Inquiry) : s.Reaches p q ↔ ∃ key, listingKey? q.namespaces = some key
    ∧ (∀ i, ¬AnsweredAt p s.asked q.kind key i) ∧ ∀ i, ¬AnsweredAt p s.asked q.kind wildcard i
  spared {q : Inquiry} (h : ¬s.Reaches p q) : (s.reply p q).2.asked = s.asked
  failure {q : Inquiry} (h : (s.reply p q).1.IsFailure) :
    (s.reply p q).2.listings = s.listings ∧ s.Reaches p q ∧ (s.reply p q).2.Reaches p q

theorem reply_snd (q : Inquiry) : (s.reply p q).2 = (s.list p q.kind q.namespaces).2 := by
  cases q <;> rfl

theorem isFailure_reply :
    (s.reply p q).1.IsFailure ↔ ∃ e, (s.list p q.kind q.namespaces).1 = .error e := by
  cases q with
  | list | listAll => exact Iff.rfl
  | findByName kind name =>
    simp only [reply, findByName, listAll, Reply.IsFailure, Inquiry.kind, Inquiry.namespaces]
    cases (s.list p kind [wildcard]).1 <;> simp [Except.map]

/-- How a question is answered. -/
theorem lists_reply (p : Provider) (s : Session) (q : Inquiry) : ∃ answer,
    s.Lists p q.kind q.namespaces (answer, (s.reply p q).2)
      ∧ ((s.reply p q).1.IsFailure ↔ ∃ e, answer = .error e) := by
  rw [reply_snd, isFailure_reply]
  exact ⟨_, lists_list p s q.kind q.namespaces, Iff.rfl⟩

/-- The remote side is asked exactly for what is not remembered. -/
theorem reaches_iff_remembers : s.Reaches p q ↔ ∃ key, listingKey? q.namespaces = some key
    ∧ ¬s.Remembers q.kind key ∧ (key = wildcard ∨ ¬s.RemembersAll q.kind) := by
  obtain ⟨answer, hlists, -⟩ := lists_reply p s q
  unfold Reaches
  generalize (s.reply p q).2 = t at hlists
  cases hlists with
  | nothing hkey => simp [hkey]
  | @remembered key rs hkey hlookup =>
    have hremembers : s.Remembers q.kind key := remembers_of_lookup hlookup
    simp [hkey, hremembers]
  | part hkey hnew hpart hlookup =>
    have hall : s.RemembersAll q.kind := remembersAll_of_lookup hlookup
    simp [rememberPart, hkey, hpart, hall]
  | answered hkey hnew hall hlist => exact iff_of_true rfl ⟨_, hkey, hnew, hall⟩
  | failed hkey hnew hall hlist => exact iff_of_true rfl ⟨_, hkey, hnew, hall⟩

theorem asked_reply_of_not_reaches (h : ¬s.Reaches p q) : (s.reply p q).2.asked = s.asked := by
  obtain ⟨answer, hlists, -⟩ := lists_reply p s q
  unfold Reaches at h
  generalize (s.reply p q).2 = t at hlists h
  cases hlists with
  | nothing | remembered | part => rfl
  | answered | failed => exact absurd rfl h

/-- **A failure is not remembered**: the question reaches the remote side, and does so again. -/
theorem reply_of_isFailure (h : (s.reply p q).1.IsFailure) :
    (s.reply p q).2.listings = s.listings ∧ s.Reaches p q ∧ (s.reply p q).2.Reaches p q := by
  obtain ⟨answer, hlists, hfailure⟩ := lists_reply p s q
  obtain ⟨e, rfl⟩ := hfailure.mp h
  have hstays : s.Reaches p q ∧ (s.reply p q).2.listings = s.listings := by
    unfold Reaches
    generalize (s.reply p q).2 = t at hlists
    cases hlists
    exact ⟨rfl, rfl⟩
  refine ⟨hstays.2, hstays.1, reaches_iff_remembers.mpr ?_⟩
  obtain ⟨key, hkey, hnew, hall⟩ := reaches_iff_remembers.mp hstays.1
  refine ⟨key, hkey, ?_, ?_⟩
  · rwa [Remembers, hstays.2]
  · rwa [RemembersAll, hstays.2]

theorem Booked.sparing (h : s.Booked p) : s.Sparing p where
  log := h.log
  reaches_iff q := by
    rw [reaches_iff_remembers]
    refine exists_congr fun key => and_congr_right fun _ => ⟨fun ⟨hnew, hall⟩ =>
      h.not_answeredAt hnew hall, fun ⟨hfresh, hfreshAll⟩ => ⟨fun hremembers => ?_, .inr ?_⟩⟩
    · obtain ⟨i, hi | hi⟩ := h.answered hremembers
      · exact hfresh i hi
      · exact hfreshAll i hi
    · intro hall
      obtain ⟨i, hi⟩ := h.all.mp hall
      exact hfreshAll i hi
  spared := asked_reply_of_not_reaches
  failure := reply_of_isFailure

theorem Booked.after (h : s.Booked p) (qs : List Inquiry) : (s.after p qs).Booked p := by
  induction qs generalizing s with
  | nil => exact h
  | cons q rest ih =>
    have hreply : (s.reply p q).2.Booked p := by
      rw [reply_snd]
      exact h.list q.kind q.namespaces
    exact ih hreply

/-- **A session that began with nothing is sparing**, whatever has been asked and answered. -/
theorem sparing_after (p : Provider) (qs : List Inquiry) : (after p qs {}).Sparing p :=
  ((booked_start p).after qs).sparing

/-- A remote side that fails at first, and then has nothing of any kind. -/
def slowStart : Provider where
  list asked kind _ := if asked.isEmpty then .error (.provider kind "starting") else .ok []
  get _ _ _ := .ok none

/-- The first question fails and is asked again; its answer has the others. -/
theorem sparing_after_slowStart :
    (reply slowStart {} (.findByName "api" "Orders")).1.IsFailure
    ∧ (after slowStart [.findByName "api" "Orders", .listAll "api", .list "api" ["blue"]] {}).asked
      = [.list "api" [wildcard], .list "api" [wildcard]]
    ∧ AnsweredAt slowStart [.list "api" [wildcard], .list "api" [wildcard]] "api" wildcard 1
    ∧ (after slowStart [.findByName "api" "Orders", .listAll "api", .list "api" ["blue"]] {}).Sparing
      slowStart :=
  ⟨⟨_, rfl⟩, by decide, ⟨_, _, rfl, rfl, rfl⟩, sparing_after slowStart _⟩

end Session

end Reconcile
