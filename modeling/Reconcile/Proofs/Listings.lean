import Reconcile.Proofs.Lists
import Reconcile.Proofs.Scopes
import Mathlib.Data.List.Nodup

/-!
# Proofs/Listings — what a session remembers of a snapshot

A session lists in one of five ways (`Session.lists_list`), two of which reach the remote side.  A
session that asks a snapshot is **faithful** when all that it remembers is what the snapshot lists.
Questions keep it faithful, and a faithful session answers as the snapshot does: `list_ofSnapshot`,
`listAll_ofSnapshot`, `findByName_ofSnapshot`.

Listings are remembered under a text for the list of namespaces, so all this holds of a class of
lists in which different ones have different texts (`Distinguished`): lists of one namespace are
such a class.
-/

namespace Reconcile

/-- Different lists of a class have different keys, and the wildcard is in the class. -/
structure Distinguished (P : List String → Prop) : Prop where
  wildcard : P [wildcard]
  key_inj : ∀ n m, P n → P m → namespacesKey n = namespacesKey m → n = m

/-- Lists of one namespace. -/
def IsSingle (n : List String) : Prop := ∃ scope, n = [scope]

theorem namespacesKey_singleton (scope : String) : namespacesKey [scope] = scope := by
  rfl

theorem distinguished_isSingle : Distinguished IsSingle where
  wildcard := ⟨_, rfl⟩
  key_inj := by
    rintro n m ⟨a, rfl⟩ ⟨b, rfl⟩ h
    rw [namespacesKey_singleton, namespacesKey_singleton] at h
    rw [h]

/-! ## What a snapshot lists -/

namespace Snapshot

/-- The managed resources of a kind in a namespace. -/
def managedIn (snap : Snapshot) (kind scope : String) : List Resource :=
  snap.resources.filter fun r =>
    r.kind == kind && r.isManaged && (scope == wildcard || r.scope == scope)

/-- The first resource of a kind with an identifier. -/
def find? (snap : Snapshot) (kind id : String) : Option Resource :=
  snap.resources.find? fun r => r.kind == kind && r.id == id

/-- The first managed resource of a kind with a name in a namespace. -/
def named? (snap : Snapshot) (kind name scope : String) : Option Resource :=
  snap.resources.find? fun r =>
    r.kind == kind && r.isManaged && r.name == name && r.scope == scope

variable {snap : Snapshot} {kind : String} {namespaces : List String} {rs : List Resource}

/-- A managed resource in a namespace is a resource of the kind. -/
theorem of_mem_managedIn {scope : String} {r : Resource} (h : r ∈ snap.managedIn kind scope) :
    r ∈ snap.resources ∧ r.kind = kind := by
  obtain ⟨hmem, hpassed⟩ := List.mem_filter.mp h
  simp only [Bool.and_eq_true, beq_iff_eq] at hpassed
  exact ⟨hmem, hpassed.1.1⟩

/-- A namespace by itself holds the managed resources that are in it. -/
theorem mem_managedIn {scope : String} {r : Resource} (hscope : scope ≠ wildcard) :
    r ∈ snap.managedIn kind scope
      ↔ r ∈ snap.resources ∧ r.kind = kind ∧ r.isManaged = true ∧ r.scope = scope := by
  simp [managedIn, hscope, and_assoc]

/-- What is found by an identifier is a resource of the kind with that identifier. -/
theorem of_find? {id : String} {r : Resource} (h : snap.find? kind id = some r) :
    r ∈ snap.resources ∧ r.kind = kind ∧ r.id = id := by
  have hpassed := List.find?_some h
  simp only [Bool.and_eq_true, beq_iff_eq] at hpassed
  exact ⟨List.mem_of_find?_eq_some h, hpassed⟩

/-- What is found by a name is a resource of the kind. -/
theorem of_named? {name scope : String} {r : Resource} (h : snap.named? kind name scope = some r) :
    r ∈ snap.resources ∧ r.kind = kind := by
  have hpassed := List.find?_some h
  simp only [Bool.and_eq_true, beq_iff_eq] at hpassed
  exact ⟨List.mem_of_find?_eq_some h, hpassed.1.1.1⟩

/-- What a snapshot lists in namespaces as they are given; nothing where none is left of them. -/
def listed (snap : Snapshot) (kind : String) (namespaces : List String) :
    Except StateFault (List Resource) :=
  if (normalizeNamespaces namespaces).isEmpty then .ok []
  else snap.list kind (normalizeNamespaces namespaces)

theorem list_eq_ok (h : snap.list kind namespaces = .ok rs) : snap.covers kind = true
    ∧ rs = snap.resources.filter fun r => r.kind == kind && r.isManaged
        && (namespaces.contains wildcard || namespaces.contains r.scope) := by
  unfold list at h
  split at h
  · exact absurd h (by simp)
  · next hcovers => exact ⟨by simpa using hcovers, (Except.ok.inj h).symm⟩

/-- A narrower listing is part of the one of all namespaces. -/
theorem list_of_list_wildcard (h : snap.list kind [wildcard] = .ok rs)
    (hw : namespaces.contains wildcard = false) : snap.list kind namespaces
      = .ok (rs.filter fun r => namespaces.contains r.scope) := by
  obtain ⟨hcovers, rfl⟩ := list_eq_ok h
  simp only [list, hcovers, hw, List.filter_filter]
  simp [Bool.and_comm]

/-- A namespace lists its managed resources. -/
theorem list_singleton (hcovers : snap.covers kind = true) (scope : String) :
    snap.list kind [scope] = .ok (snap.managedIn kind scope) := by
  have hcontains : ∀ name, [scope].contains name = (scope == name) := by
    intro name
    rw [List.contains_cons, List.contains_nil, Bool.or_false, Bool.beq_comm]
  have hflip : ∀ r : Resource, (scope == r.scope) = (r.scope == scope) := fun r => Bool.beq_comm
  rw [list, hcovers]
  simp only [hcontains, hflip]
  rfl

/-- The managed resource with a name in a namespace is found in the listing of all namespaces. -/
theorem find?_managedIn_wildcard (snap : Snapshot) (kind name scope : String) :
    (snap.managedIn kind wildcard).find? (fun r => r.name == name && r.scope == scope)
      = snap.named? kind name scope := by
  unfold managedIn named?
  rw [List.find?_filter]
  congr 1
  funext r
  rw [Bool.eq_iff_iff]
  simp [and_assoc]

/-- The managed resource with a name in a namespace is found in the listing of that namespace. -/
theorem find?_managedIn {scope : String} (hscope : scope ≠ wildcard) (snap : Snapshot)
    (kind name : String) : (snap.managedIn kind scope).find? (fun r => r.name == name)
      = snap.named? kind name scope := by
  unfold managedIn named?
  rw [List.find?_filter]
  congr 1
  funext r
  rw [Bool.eq_iff_iff]
  simp only [Bool.and_eq_true, Bool.or_eq_true, beq_iff_eq, decide_eq_true_eq, hscope, false_or,
    and_assoc, and_comm (a := r.scope = scope)]

theorem get_of_covers (hcovers : snap.covers kind = true) (id : String) :
    snap.get kind id = .ok (snap.find? kind id) := by
  rw [get, hcovers]
  rfl

/-- No two resources of a kind have an identifier in common. -/
def Distinct (snap : Snapshot) : Prop := (snap.resources.map fun r => (r.kind, r.id)).Nodup

instance (snap : Snapshot) : Decidable snap.Distinct :=
  inferInstanceAs (Decidable (snap.resources.map fun r => (r.kind, r.id)).Nodup)

theorem Distinct.eq (h : snap.Distinct) {r r' : Resource} (hr : r ∈ snap.resources)
    (hr' : r' ∈ snap.resources) (hkind : r.kind = r'.kind) (hid : r.id = r'.id) : r = r' :=
  List.inj_on_of_nodup_map h hr hr' (Prod.ext hkind hid)

/-- **Where identifiers are distinct, a resource is found by its own.** -/
theorem Distinct.find?_of_mem (h : snap.Distinct) {r : Resource} (hr : r ∈ snap.resources) :
    snap.find? r.kind r.id = some r := by
  rcases hfound : snap.find? r.kind r.id with _ | r'
  · exact absurd (List.find?_eq_none.mp hfound r hr) (by simp)
  · obtain ⟨hr', hkind, hid⟩ := of_find? hfound
    rw [h.eq hr' hr hkind hid]

end Snapshot

/-- A normalized list that holds the wildcard holds nothing else. -/
theorem normalizeNamespaces_of_contains {namespaces : List String}
    (h : (normalizeNamespaces namespaces).contains wildcard = true) :
    normalizeNamespaces namespaces = [wildcard] := by
  unfold normalizeNamespaces at h ⊢
  dsimp only at h ⊢
  split
  · rfl
  · next hw =>
    rw [if_neg hw, List.contains_iff_mem, mem_sortedSet, ← List.contains_iff_mem] at h
    exact absurd h hw

theorem normalizeNamespaces_wildcard : normalizeNamespaces [wildcard] = [wildcard] := by decide

/-- The key of the listing of namespaces; there is none where no namespace is left. -/
def listingKey? (namespaces : List String) : Option String :=
  if (normalizeNamespaces namespaces).isEmpty then none
  else some (namespacesKey (normalizeNamespaces namespaces))

theorem listingKey?_eq_none_iff {namespaces : List String} :
    listingKey? namespaces = none ↔ normalizeNamespaces namespaces = [] := by
  simp [listingKey?]

theorem namespacesKey_of_listingKey? {namespaces : List String} {key : String}
    (h : listingKey? namespaces = some key) :
    namespacesKey (normalizeNamespaces namespaces) = key :=
  (Option.ite_none_left_eq_some.mp h).2 |> Option.some.inj

theorem listingKey?_wildcard : listingKey? [wildcard] = some wildcard := by decide

namespace Session

/-! ## How a listing comes about -/

section Lists

variable {p : Provider} {s : Session} {kind key : String} {namespaces : List String}
  {rs : List Resource}

/-- A listing is remembered under a key. -/
def Remembers (s : Session) (kind key : String) : Prop :=
  (s.listings.byKey.lookup (kind, key)).isSome = true

/-- The listing of all namespaces of a kind is remembered. -/
def RemembersAll (s : Session) (kind : String) : Prop :=
  (s.listings.all.lookup kind).isSome = true

theorem remembers_of_lookup (h : s.listings.byKey.lookup (kind, key) = some rs) :
    s.Remembers kind key := Option.isSome_of_eq_some h

theorem remembersAll_of_lookup (h : s.listings.all.lookup kind = some rs) :
    s.RemembersAll kind := Option.isSome_of_eq_some h

/-- The session once a listing has been asked for. -/
def asking (s : Session) (kind : String) (namespaces : List String) : Session :=
  { s with asked := s.asked ++ [.list kind (normalizeNamespaces namespaces)] }

/-- **How a listing comes about**: nothing is left to list, it is remembered, it is part of what is
remembered, or the remote side is asked, which answers or fails. -/
inductive Lists (p : Provider) (s : Session) (kind : String) (namespaces : List String) :
    Except StateFault (List Resource) × Session → Prop
  | nothing (hkey : listingKey? namespaces = none) : Lists p s kind namespaces (.ok [], s)
  | remembered {key : String} {rs : List Resource} (hkey : listingKey? namespaces = some key)
      (h : s.listings.byKey.lookup (kind, key) = some rs) : Lists p s kind namespaces (.ok rs, s)
  | part {key : String} {rs all : List Resource} (hkey : listingKey? namespaces = some key)
      (hnew : ¬s.Remembers kind key) (hpart : key ≠ wildcard)
      (hall : s.listings.all.lookup kind = some all)
      (hrs : rs = all.filter fun r => (normalizeNamespaces namespaces).contains r.scope) :
      Lists p s kind namespaces (.ok rs, s.rememberPart kind key rs)
  | answered {key : String} {rs : List Resource} (hkey : listingKey? namespaces = some key)
      (hnew : ¬s.Remembers kind key) (hall : key = wildcard ∨ ¬s.RemembersAll kind)
      (h : p.list s.asked kind (normalizeNamespaces namespaces) = .ok rs) :
      Lists p s kind namespaces (.ok rs, (s.asking kind namespaces).remember kind key rs)
  | failed {key : String} {e : StateFault} (hkey : listingKey? namespaces = some key)
      (hnew : ¬s.Remembers kind key) (hall : key = wildcard ∨ ¬s.RemembersAll kind)
      (h : p.list s.asked kind (normalizeNamespaces namespaces) = .error e) :
      Lists p s kind namespaces (.error e, s.asking kind namespaces)

theorem lists_list (p : Provider) (s : Session) (kind : String) (namespaces : List String) :
    s.Lists p kind namespaces (s.list p kind namespaces) := by
  unfold Session.list
  dsimp only
  split
  · next hempty => exact .nothing (if_pos hempty)
  next hsome =>
  have hkey : listingKey? namespaces = some (namespacesKey (normalizeNamespaces namespaces)) :=
    if_neg hsome
  split
  · next hlookup => exact .remembered hkey hlookup
  next hlookup =>
  have hnew : ¬s.Remembers kind (namespacesKey (normalizeNamespaces namespaces)) :=
    Option.not_isSome_iff_eq_none.mpr hlookup
  split
  · next all hall =>
    obtain ⟨hpart, hlookup⟩ := Option.ite_none_left_eq_some.mp hall
    exact .part hkey hnew hpart hlookup rfl
  next hall =>
  have hall : namespacesKey (normalizeNamespaces namespaces) = wildcard ∨ ¬s.RemembersAll kind := by
    refine or_iff_not_imp_left.mpr fun hpart => ?_
    rw [if_neg hpart] at hall
    exact Option.not_isSome_iff_eq_none.mpr hall
  rcases hlist : p.list s.asked kind (normalizeNamespaces namespaces) with e | rs
  · simp only [fetch, hlist]
    exact .failed hkey hnew hall hlist
  · simp only [fetch, hlist]
    exact .answered hkey hnew hall hlist

end Lists

/-! ## Faithful sessions -/

/-- **All that the session remembers is what the snapshot lists**, for lists of a class. -/
structure Faithful (P : List String → Prop) (snap : Snapshot) (s : Session) : Prop where
  byKey : ∀ e ∈ s.listings.byKey,
    ∃ n, P n ∧ e.1.2 = namespacesKey n ∧ snap.list e.1.1 n = .ok e.2
  all : ∀ e ∈ s.listings.all, snap.list e.1 [wildcard] = .ok e.2

variable {P : List String → Prop} {snap : Snapshot} {s : Session} {kind : String}

theorem faithful_start : Faithful P snap {} where
  byKey := by simp
  all := by simp

/-- Asking leaves what is remembered as it is. -/
theorem Faithful.ask (h : s.Faithful P snap) (q : List Query) :
    Faithful P snap { s with asked := q } := ⟨h.byKey, h.all⟩

/-- Remembering what was listed keeps a session faithful. -/
theorem Faithful.rememberPart (h : s.Faithful P snap) {n : List String} {rs : List Resource}
    (hn : P n) (hlist : snap.list kind n = .ok rs) :
    (s.rememberPart kind (namespacesKey n) rs).Faithful P snap where
  byKey e he := by
    rcases List.mem_cons.mp he with rfl | he
    · exact ⟨n, hn, rfl, hlist⟩
    · exact h.byKey e he
  all := h.all

theorem Faithful.remember (hP : Distinguished P) (h : s.Faithful P snap) {n : List String}
    {rs : List Resource} (hn : P n) (hlist : snap.list kind n = .ok rs) :
    (s.remember kind (namespacesKey n) rs).Faithful P snap where
  byKey := (h.rememberPart hn hlist).byKey
  all e he := by
    unfold Session.remember at he
    split at he
    · next hkey =>
      rcases List.mem_cons.mp he with rfl | he
      · have hn' := hP.key_inj n [wildcard] hn hP.wildcard
          (hkey.trans (namespacesKey_singleton _).symm)
        exact hn' ▸ hlist
      · exact h.all e he
    · exact h.all e he

/-- **A faithful session lists what the snapshot lists**, and stays faithful. -/
theorem list_ofSnapshot (hP : Distinguished P) (h : s.Faithful P snap) (kind : String)
    {namespaces : List String} (hn : (normalizeNamespaces namespaces).isEmpty = false →
      P (normalizeNamespaces namespaces)) :
    ∃ s', s.list (.ofSnapshot snap) kind namespaces = (snap.listed kind namespaces, s')
      ∧ s'.Faithful P snap := by
  have hlists := lists_list (.ofSnapshot snap) s kind namespaces
  have hkeyed : ∀ {key}, listingKey? namespaces = some key → P (normalizeNamespaces namespaces)
      ∧ namespacesKey (normalizeNamespaces namespaces) = key
      ∧ snap.listed kind namespaces = snap.list kind (normalizeNamespaces namespaces) := by
    intro key hkey
    have hne : ¬(normalizeNamespaces namespaces).isEmpty := (Option.ite_none_left_eq_some.mp hkey).1
    exact ⟨hn (by simpa using hne), namespacesKey_of_listingKey? hkey, if_neg hne⟩
  generalize s.list (.ofSnapshot snap) kind namespaces = answer at hlists ⊢
  cases hlists with
  | nothing hkey =>
    have hempty := listingKey?_eq_none_iff.mp hkey
    exact ⟨s, by rw [Snapshot.listed, hempty]; rfl, h⟩
  | remembered hkey hlookup =>
    obtain ⟨hnP, rfl, hlisted⟩ := hkeyed hkey
    obtain ⟨m, hm, hkeym, hlist⟩ := h.byKey _ (mem_of_lookup_eq_some hlookup)
    obtain rfl := hP.key_inj _ m hnP hm hkeym
    exact ⟨s, by rw [hlisted, hlist], h⟩
  | part hkey hnew hpart hall hrs =>
    obtain ⟨hnP, rfl, hlisted⟩ := hkeyed hkey
    have hw : (normalizeNamespaces namespaces).contains wildcard = false := by
      by_contra hcontains
      rw [Bool.not_eq_false] at hcontains
      rw [normalizeNamespaces_of_contains hcontains, namespacesKey_singleton] at hpart
      exact hpart rfl
    have hlist := Snapshot.list_of_list_wildcard (h.all _ (mem_of_lookup_eq_some hall)) hw
    rw [← hrs] at hlist
    exact ⟨_, by rw [hlisted, hlist], h.rememberPart hnP hlist⟩
  | answered hkey hnew hall hlist =>
    obtain ⟨hnP, rfl, hlisted⟩ := hkeyed hkey
    exact ⟨_, by rw [hlisted, ← hlist]; rfl, (h.ask _).remember hP hnP hlist⟩
  | failed hkey hnew hall hlist =>
    obtain ⟨-, -, hlisted⟩ := hkeyed hkey
    exact ⟨_, by rw [hlisted, ← hlist]; rfl, h.ask _⟩

/-- The listing of a namespace. -/
theorem list_scope_ofSnapshot (h : s.Faithful IsSingle snap) {scope : String}
    (hscope : IsScope scope) (kind : String) :
    ∃ s', s.list (.ofSnapshot snap) kind [scope] = (snap.list kind [scope], s')
      ∧ s'.Faithful IsSingle snap := by
  have hnormal := normalizeNamespaces_singleton hscope
  have hsingle : IsSingle (normalizeNamespaces [scope]) := by
    rw [hnormal]
    exact ⟨scope, rfl⟩
  have hlist := list_ofSnapshot distinguished_isSingle h kind fun _ => hsingle
  rwa [Snapshot.listed, hnormal, List.isEmpty_cons, if_neg Bool.false_ne_true] at hlist

/-- The listing of all namespaces. -/
theorem listAll_ofSnapshot (hP : Distinguished P) (h : s.Faithful P snap) (kind : String) :
    ∃ s', s.listAll (.ofSnapshot snap) kind = (snap.list kind [wildcard], s')
      ∧ s'.Faithful P snap := by
  have hn : (normalizeNamespaces [wildcard]).isEmpty = false → P (normalizeNamespaces [wildcard]) :=
    fun _ => normalizeNamespaces_wildcard ▸ hP.wildcard
  exact list_ofSnapshot hP h kind hn

/-- The first resource with a name. -/
theorem findByName_ofSnapshot (hP : Distinguished P) (h : s.Faithful P snap) (kind name : String) :
    ∃ s', s.findByName (.ofSnapshot snap) kind name
        = ((snap.list kind [wildcard]).map fun rs => rs.find? fun r => r.name == name, s')
      ∧ s'.Faithful P snap := by
  obtain ⟨s', hs', hfaithful⟩ := listAll_ofSnapshot hP h kind
  exact ⟨s', by rw [findByName, hs'], hfaithful⟩

/-- The resource with an identifier. -/
theorem get_ofSnapshot (h : s.Faithful P snap) (kind id : String) :
    ∃ s', s.get (.ofSnapshot snap) kind id = (snap.get kind id, s') ∧ s'.Faithful P snap :=
  ⟨_, rfl, h.ask _⟩

end Session

end Reconcile
