import Reconcile.Proofs.Listings

/-!
# Proofs/Listings/Transparency — what is remembered shows in no answer

Lists of namespaces without commas have keys of their own (`distinguished_isKeyed`), so a session
that is asked for such lists alone stays faithful to the snapshot behind it.  Main fact:
`replies_ofSnapshot` — whatever has been asked before, every question is answered as by a session
that remembers nothing, which is with what the snapshot lists.
-/

namespace Reconcile

/-! ## Keys -/

/-- No comma stands in a namespace. -/
def IsCommaFree (namespaces : List String) : Prop := ∀ scope ∈ namespaces, ',' ∉ scope.toList

/-- Lists that are left of namespaces without commas. -/
def IsKeyed (normalized : List String) : Prop := normalized ≠ [] ∧ IsCommaFree normalized

/-- What stands between the commas of a key. -/
def betweenCommas (normalized : List String) : List (List Char) :=
  normalized.flatMap fun name => name.toList.splitOn ','

variable {normalized : List String}

theorem splitOn_namespacesKey (h : normalized ≠ []) :
    (namespacesKey normalized).toList.splitOn ',' = betweenCommas normalized := by
  induction normalized with
  | nil => exact absurd rfl h
  | cons name rest ih =>
    rcases eq_or_ne rest [] with rfl | hrest
    · simp [namespacesKey, betweenCommas]
    · rw [namespacesKey, String.intercalate_cons_of_ne_nil hrest, String.toList_append,
        String.toList_append, betweenCommas, List.flatMap_cons, List.append_assoc]
      exact (List.splitOn_append_cons_self ..).trans (congrArg _ (ih hrest))

/-- **The namespaces can be read off a key**, where no comma stands in them. -/
theorem IsCommaFree.betweenCommas_eq (h : IsCommaFree normalized) :
    betweenCommas normalized = normalized.map String.toList := by
  have hsplit : ∀ name ∈ normalized, name.toList.splitOn ',' = [name.toList] := fun name hname =>
    List.splitOn_eq_singleton (h name hname)
  rw [betweenCommas, List.flatMap_congr hsplit, List.map_eq_flatMap]

theorem IsCommaFree.betweenCommas_inj {n m : List String} (hn : IsCommaFree n)
    (hm : IsCommaFree m) : betweenCommas n = betweenCommas m ↔ n = m := by
  rw [hn.betweenCommas_eq, hm.betweenCommas_eq]
  exact (List.map_injective_iff.mpr fun _ _ => String.toList_injective).eq_iff

theorem distinguished_isKeyed : Distinguished IsKeyed where
  wildcard := ⟨by simp, by simp [IsCommaFree, wildcard]⟩
  key_inj n m hn hm hkey := by
    rw [← hn.2.betweenCommas_inj hm.2, ← splitOn_namespacesKey hn.1, hkey,
      splitOn_namespacesKey hm.1]

theorem mem_toList_of_mem_toList_trim {s : String} {c : Char} (h : c ∈ (trim s).toList) :
    c ∈ s.toList := by
  rw [trim, String.toList_ofList, dropBlanksRight_eq_rdropWhile] at h
  exact List.dropWhile_subset isBlank ((List.rdropWhile_prefix isBlank _).subset h)

/-- Normalizing puts no comma in. -/
theorem IsCommaFree.normalizeNamespaces {namespaces : List String} (h : IsCommaFree namespaces) :
    IsCommaFree (normalizeNamespaces namespaces) := by
  unfold Reconcile.normalizeNamespaces
  dsimp only
  split
  · exact distinguished_isKeyed.wildcard.2
  · intro scope hscope hcomma
    obtain ⟨hmem, -⟩ := List.mem_filter.mp (mem_sortedSet.mp hscope)
    obtain ⟨name, hname, rfl⟩ := List.mem_map.mp hmem
    exact h name hname (mem_toList_of_mem_toList_trim hcomma)

/-! ## Questions to a session -/

/-- A question to a session. -/
inductive Inquiry where
  | list (kind : String) (namespaces : List String)
  | listAll (kind : String)
  | findByName (kind name : String)

/-- No comma stands in the namespaces of a question. -/
def Inquiry.IsCommaFree : Inquiry → Prop
  | .list _ namespaces => Reconcile.IsCommaFree namespaces
  | _ => True

/-- What a question is answered with. -/
inductive Reply where
  | listing (answer : Except StateFault (List Resource))
  | resource (answer : Except StateFault (Option Resource))

namespace Session

/-- Answers a question. -/
def reply (p : Provider) (s : Session) : Inquiry → Reply × Session
  | .list kind namespaces =>
    let (answer, s) := s.list p kind namespaces
    (.listing answer, s)
  | .listAll kind =>
    let (answer, s) := s.listAll p kind
    (.listing answer, s)
  | .findByName kind name =>
    let (answer, s) := s.findByName p kind name
    (.resource answer, s)

/-- Answers questions, one after the other. -/
def replies (p : Provider) : List Inquiry → Session → List Reply
  | [], _ => []
  | q :: rest, s => (s.reply p q).1 :: replies p rest (s.reply p q).2

end Session

/-- **What a snapshot says to a question**: the listing of the normalized namespaces, nothing where
none is left of them, and the first resource with a name among those of every namespace. -/
def Snapshot.reply (snap : Snapshot) : Inquiry → Reply
  | .list kind namespaces => .listing (snap.listed kind namespaces)
  | .listAll kind => .listing (snap.list kind [wildcard])
  | .findByName kind name =>
    .resource ((snap.list kind [wildcard]).map fun rs => rs.find? fun r => r.name == name)

/-! ## Answers -/

namespace Session

variable {snap : Snapshot} {s : Session} {q : Inquiry} {qs : List Inquiry}

/-- **A faithful session answers a question as the snapshot does**, and stays faithful. -/
theorem reply_ofSnapshot (h : s.Faithful IsKeyed snap) (hq : q.IsCommaFree) :
    (s.reply (.ofSnapshot snap) q).1 = snap.reply q
      ∧ (s.reply (.ofSnapshot snap) q).2.Faithful IsKeyed snap := by
  cases q with
  | list kind namespaces =>
    have hkeyed : (normalizeNamespaces namespaces).isEmpty = false →
        IsKeyed (normalizeNamespaces namespaces) := fun hne =>
      ⟨by simpa using hne, hq.normalizeNamespaces⟩
    obtain ⟨s', hs', hfaithful⟩ := list_ofSnapshot distinguished_isKeyed h kind hkeyed
    rw [reply, hs']
    exact ⟨rfl, hfaithful⟩
  | listAll kind =>
    obtain ⟨s', hs', hfaithful⟩ := listAll_ofSnapshot distinguished_isKeyed h kind
    rw [reply, hs']
    exact ⟨rfl, hfaithful⟩
  | findByName kind name =>
    obtain ⟨s', hs', hfaithful⟩ := findByName_ofSnapshot distinguished_isKeyed h kind name
    rw [reply, hs']
    exact ⟨rfl, hfaithful⟩

theorem replies_eq_map (h : s.Faithful IsKeyed snap) (hqs : ∀ q ∈ qs, q.IsCommaFree) :
    replies (.ofSnapshot snap) qs s = qs.map snap.reply := by
  induction qs generalizing s with
  | nil => rfl
  | cons q rest ih =>
    obtain ⟨hq, hrest⟩ := List.forall_mem_cons.mp hqs
    obtain ⟨hreply, hfaithful⟩ := reply_ofSnapshot h hq
    rw [replies, hreply, ih hfaithful hrest, List.map_cons]

end Session

/-- **Whatever has been asked before, a question is answered as by a session that remembers
nothing**, with what the snapshot says to it. -/
theorem replies_ofSnapshot {snap : Snapshot} {qs : List Inquiry}
    (h : ∀ q ∈ qs, q.IsCommaFree) :
    Session.replies (.ofSnapshot snap) qs {}
        = qs.map (fun q => (Session.reply (.ofSnapshot snap) {} q).1)
      ∧ ∀ q ∈ qs, (Session.reply (.ofSnapshot snap) {} q).1 = snap.reply q := by
  have halone : ∀ q ∈ qs, (Session.reply (.ofSnapshot snap) {} q).1 = snap.reply q := fun q hq =>
    (Session.reply_ofSnapshot Session.faithful_start (h q hq)).1
  refine ⟨?_, halone⟩
  rw [Session.replies_eq_map Session.faithful_start h]
  exact List.map_congr_left fun q hq => (halone q hq).symm

/-- Apis of two namespaces, and no portals that the snapshot knows of. -/
def twoTeams : Snapshot where
  configured := some (.ofList ["api"])
  resources := [
    { id := "a1", kind := "api", name := "Orders", labels := managementLabels "blue" false },
    { id := "a2", kind := "api", name := "Billing", labels := managementLabels "red" false }]

/-- A narrow list, one that comes to the same, all namespaces, parts of them, and a name. -/
def teamQuestions : List Inquiry := [
  .list "api" ["red", "blue"], .list "api" [" blue ", "", "red", "blue"], .listAll "api",
  .list "api" ["red"], .list "api" ["green", "*"], .list "api" ["  "], .findByName "api" "Billing",
  .listAll "portal"]

theorem replies_teamQuestions : (∀ q ∈ teamQuestions, q.IsCommaFree)
    ∧ Session.replies (.ofSnapshot twoTeams) teamQuestions {}
        = teamQuestions.map (fun q => (Session.reply (.ofSnapshot twoTeams) {} q).1)
    ∧ ∀ q ∈ teamQuestions, (Session.reply (.ofSnapshot twoTeams) {} q).1 = twoTeams.reply q := by
  have hfree : ∀ q ∈ teamQuestions, q.IsCommaFree := by
    simp [teamQuestions, Inquiry.IsCommaFree, IsCommaFree]
  exact ⟨hfree, replies_ofSnapshot hfree⟩

end Reconcile
