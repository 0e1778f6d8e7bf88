import Reconcile.Proofs.Listings.Economy

/-!
# Proofs/Listings/Keys — which lists of namespaces share a listing

Normalizing tells lists of namespaces apart exactly if they do not come to the same
(`SameNamespaces`).  The key of a normalized list is its names with commas between them, so that a
comma in a name counts as one between two: lists share a key exactly if the same stands between
their commas, and then the one is answered with the listing of the other.  Main fact: `keysTell`.
-/

namespace Reconcile

/-! ## Lists that come to the same -/

/-- The names in a list of namespaces: there are no blanks around them, and none is empty. -/
def namesOf (namespaces : List String) : List String :=
  (namespaces.map trim).filter fun s => !s.isEmpty

/-- **Lists come to the same** if both stand for all namespaces, or neither does and they have the
same names. -/
def SameNamespaces (n m : List String) : Prop :=
  (wildcard ∈ namesOf n ∧ wildcard ∈ namesOf m)
    ∨ wildcard ∉ namesOf n ∧ wildcard ∉ namesOf m ∧ ∀ name, name ∈ namesOf n ↔ name ∈ namesOf m

variable {n m normalized : List String}

theorem mem_namesOf {name : String} : name ∈ namesOf n ↔ name ∈ n.map trim ∧ name ≠ "" := by
  simp [namesOf]

theorem isScope_of_mem_namesOf {name : String} (h : name ∈ namesOf n) : IsScope name := by
  obtain ⟨hmem, hne⟩ := mem_namesOf.mp h
  obtain ⟨name, -, rfl⟩ := List.mem_map.mp hmem
  exact isScope_trim hne

/-- Names are what they are. -/
theorem namesOf_of_isScope (h : ∀ name ∈ n, IsScope name) : namesOf n = n := by
  have htrim : n.map trim = n := (List.map_congr_left fun name hname => (h name hname).1).trans
    (List.map_id' n)
  rw [namesOf, htrim, List.filter_eq_self]
  exact fun name hname => by simpa using (h name hname).2

theorem normalizeNamespaces_eq : normalizeNamespaces n
    = if wildcard ∈ namesOf n then [wildcard] else sortedSet (namesOf n) := by
  simp only [normalizeNamespaces, List.contains_iff_mem]
  rfl

theorem isScope_of_mem_normalizeNamespaces {name : String} (h : name ∈ normalizeNamespaces n) :
    IsScope name := by
  rw [normalizeNamespaces_eq] at h
  split at h
  · next hw => exact List.mem_singleton.mp h ▸ isScope_of_mem_namesOf hw
  · exact isScope_of_mem_namesOf (mem_sortedSet.mp h)

/-- **Normalizing tells apart what does not come to the same**, and nothing else. -/
theorem normalizeNamespaces_eq_iff :
    normalizeNamespaces n = normalizeNamespaces m ↔ SameNamespaces n m := by
  have hall : ∀ l, wildcard ∉ l → [wildcard] ≠ sortedSet l := fun l hl heq =>
    hl (mem_sortedSet.mp (heq ▸ List.mem_singleton_self wildcard))
  rw [normalizeNamespaces_eq, normalizeNamespaces_eq]
  split <;> split
  · next hn hm => exact iff_of_true rfl (.inl ⟨hn, hm⟩)
  · next hn hm => simp [SameNamespaces, hn, hm, hall _ hm]
  · next hn hm => simp [SameNamespaces, hn, hm, (hall _ hn).symm]
  · next hn hm =>
    have hset : sortedSet (namesOf n) = sortedSet (namesOf m)
        ↔ ∀ name, name ∈ namesOf n ↔ name ∈ namesOf m := by
      constructor
      · intro heq name
        rw [← mem_sortedSet, heq, mem_sortedSet]
      · intro hmem
        refine eq_of_ascending (ascending_sortedSet _) (ascending_sortedSet _) fun name => ?_
        rw [mem_sortedSet, mem_sortedSet, hmem]
    simp [SameNamespaces, hn, hm, hset]

/-- What is left of a list comes to the same as the list. -/
theorem sameNamespaces_normalizeNamespaces (n : List String) :
    SameNamespaces (normalizeNamespaces n) n := by
  rw [SameNamespaces, namesOf_of_isScope fun _ => isScope_of_mem_normalizeNamespaces,
    normalizeNamespaces_eq]
  split
  · next hw => exact .inl ⟨List.mem_singleton_self _, hw⟩
  · next hw => exact .inr ⟨mt mem_sortedSet.mp hw, hw, fun _ => mem_sortedSet⟩

theorem normalizeNamespaces_normalizeNamespaces (n : List String) :
    normalizeNamespaces (normalizeNamespaces n) = normalizeNamespaces n :=
  normalizeNamespaces_eq_iff.mpr (sameNamespaces_normalizeNamespaces n)

/-- Lists with the same entries up to blanks come to the same, in whatever order and however often
these stand in them. -/
theorem sameNamespaces_of_trim (h : ∀ name, name ∈ n.map trim ↔ name ∈ m.map trim) :
    SameNamespaces n m := by
  have hmem : ∀ name, name ∈ namesOf n ↔ name ∈ namesOf m := fun name => by
    rw [mem_namesOf, mem_namesOf, h]
  by_cases hw : wildcard ∈ namesOf n
  · exact .inl ⟨hw, (hmem _).mp hw⟩
  · exact .inr ⟨hw, mt (hmem _).mpr hw, hmem⟩

/-! ## Keys -/

theorem betweenCommas_eq_nil_iff : betweenCommas normalized = [] ↔ normalized = [] := by
  cases normalized <;> simp [betweenCommas]

theorem namespacesKey_eq_iff (hn : n ≠ []) (hm : m ≠ []) :
    namespacesKey n = namespacesKey m ↔ betweenCommas n = betweenCommas m := by
  have hback : ∀ key : String, [','].intercalate (key.toList.splitOn ',') = key.toList := fun _ =>
    List.intercalate_splitOn ','
  rw [← splitOn_namespacesKey hn, ← splitOn_namespacesKey hm]
  refine ⟨fun h => by rw [h], fun h => String.toList_injective ?_⟩
  rw [← hback, h, hback]

/-- **Lists share a key exactly if the same stands between its commas.** -/
theorem listingKey?_eq_iff : listingKey? n = listingKey? m
    ↔ betweenCommas (normalizeNamespaces n) = betweenCommas (normalizeNamespaces m) := by
  by_cases hn : normalizeNamespaces n = [] <;> by_cases hm : normalizeNamespaces m = []
  · simp [listingKey?, hn, hm]
  · rw [hn, betweenCommas_eq_nil_iff.mpr rfl, eq_comm, eq_comm (a := []), betweenCommas_eq_nil_iff]
    simp [listingKey?, hn]
  · rw [hm, betweenCommas_eq_nil_iff.mpr rfl, betweenCommas_eq_nil_iff]
    simp [listingKey?, hm]
  · simp [listingKey?, hn, hm, namespacesKey_eq_iff hn hm]

/-- **Where no comma is left in a name, lists share a key exactly if they come to the same.** -/
theorem listingKey?_eq_iff_of_isCommaFree (hn : IsCommaFree (normalizeNamespaces n))
    (hm : IsCommaFree (normalizeNamespaces m)) :
    listingKey? n = listingKey? m ↔ SameNamespaces n m := by
  rw [listingKey?_eq_iff, hn.betweenCommas_inj hm, normalizeNamespaces_eq_iff]

/-! ## Listings -/

namespace Session

variable {p : Provider} {s s' : Session} {kind key : String} {rs : List Resource}

/-- A listing that is remembered is given as it is. -/
theorem list_of_lookup (hkey : listingKey? n = some key)
    (h : s.listings.byKey.lookup (kind, key) = some rs) : s.list p kind n = (.ok rs, s) := by
  have hremembers : s.Remembers kind key := remembers_of_lookup h
  have hlists := lists_list p s kind n
  generalize s.list p kind n = answer at hlists ⊢
  cases hlists with
  | nothing hkey' => exact absurd (hkey.symm.trans hkey') (by simp)
  | remembered hkey' h' =>
    obtain rfl := Option.some.inj (hkey.symm.trans hkey')
    rw [Option.some.inj (h.symm.trans h')]
  | part hkey' hnew | answered hkey' hnew | failed hkey' hnew =>
    obtain rfl := Option.some.inj (hkey.symm.trans hkey')
    exact absurd hremembers hnew

/-- An answer is remembered under the key of what was asked. -/
theorem lookup_of_list (h : s.list p kind n = (.ok rs, s')) (hkey : listingKey? n = some key) :
    s'.listings.byKey.lookup (kind, key) = some rs := by
  have hlists := lists_list p s kind n
  rw [h] at hlists
  cases hlists with
  | nothing hkey' => exact absurd (hkey.symm.trans hkey') (by simp)
  | remembered hkey' hlookup =>
    obtain rfl := Option.some.inj (hkey.symm.trans hkey')
    exact hlookup
  | part hkey' | answered hkey' =>
    obtain rfl := Option.some.inj (hkey.symm.trans hkey')
    exact List.lookup_cons_self

theorem list_of_nothing (hkey : listingKey? n = none) : s.list p kind n = (.ok [], s) := by
  have hlists := lists_list p s kind n
  generalize s.list p kind n = answer at hlists ⊢
  cases hlists with
  | nothing => rfl
  | remembered hkey' | part hkey' | answered hkey' | failed hkey' =>
    exact absurd (hkey.symm.trans hkey') (by simp)

/-- **Lists that share a key share a listing**: the one is answered as the other was. -/
theorem list_of_listingKey?_eq (hshare : listingKey? n = listingKey? m)
    (h : s.list p kind n = (.ok rs, s')) : s'.list p kind m = (.ok rs, s') := by
  rcases hkey : listingKey? n with _ | key
  · obtain ⟨rfl, rfl⟩ : [] = rs ∧ s = s' := by simpa [list_of_nothing hkey] using h
    exact list_of_nothing (hshare ▸ hkey)
  · exact list_of_lookup (hshare ▸ hkey) (lookup_of_list h hkey)

/-- A listing is remembered under its own key at most. -/
theorem remembers_of_list {kind' key' : String} (h : (s.list p kind n).2.Remembers kind' key') :
    s.Remembers kind' key' ∨ listingKey? n = some key' := by
  have hlists := lists_list p s kind n
  generalize s.list p kind n = answer at hlists h
  cases hlists with
  | nothing | remembered | failed => exact .inl h
  | part hkey | answered hkey =>
    refine (remembers_rememberPart.mp h).symm.imp_right fun heq => ?_
    rw [hkey, (Prod.mk.inj heq).2]

theorem remembersAll_of_list {kind' : String} (h : (s.list p kind n).2.RemembersAll kind') :
    s.RemembersAll kind' ∨ listingKey? n = some wildcard := by
  have hlists := lists_list p s kind n
  generalize s.list p kind n = answer at hlists h
  cases hlists with
  | nothing | remembered | part | failed => exact .inl h
  | answered hkey =>
    refine (remembersAll_remember.mp h).symm.imp_right fun heq => ?_
    rw [hkey, ← (Prod.mk.inj heq).2]

/-- **A listing under another key answers nothing**, unless it is the one of all namespaces. -/
theorem reaches_of_listingKey?_ne (hne : listingKey? n ≠ listingKey? m)
    (hpart : listingKey? n ≠ some wildcard) (h : s.Reaches p (.list kind m)) :
    (s.list p kind n).2.Reaches p (.list kind m) := by
  obtain ⟨key, hkey, hnew, hall⟩ := reaches_iff_remembers.mp h
  refine reaches_iff_remembers.mpr ⟨key, hkey, fun hremembers => ?_, hall.imp_right fun hall h => ?_⟩
  · exact (remembers_of_list hremembers).elim hnew fun heq => hne (heq.trans hkey.symm)
  · exact (remembersAll_of_list h).elim hall hpart

end Session

/-- **What keys tell of two lists of namespaces**: which of them come to the same once they are
normalized, which share a key, and what that means for their listings. -/
structure KeysTell (n m : List String) : Prop where
  normalized_eq_iff : normalizeNamespaces n = normalizeNamespaces m ↔ SameNamespaces n m
  normalized_twice : normalizeNamespaces (normalizeNamespaces n) = normalizeNamespaces n
  same_of_trim : (∀ name, name ∈ n.map trim ↔ name ∈ m.map trim) → SameNamespaces n m
  key_eq_iff : listingKey? n = listingKey? m
    ↔ betweenCommas (normalizeNamespaces n) = betweenCommas (normalizeNamespaces m)
  key_eq_iff_same : IsCommaFree (normalizeNamespaces n) → IsCommaFree (normalizeNamespaces m) →
    (listingKey? n = listingKey? m ↔ SameNamespaces n m)
  shared : listingKey? n = listingKey? m → ∀ {p : Provider} {s s' : Session} {kind rs},
    s.list p kind n = (.ok rs, s') → s'.list p kind m = (.ok rs, s')
  apart : listingKey? n ≠ listingKey? m → listingKey? n ≠ some wildcard →
    ∀ {p : Provider} {s : Session} {kind}, s.Reaches p (.list kind m) →
      (s.list p kind n).2.Reaches p (.list kind m)

/-- **Keys tell namespaces apart up to the commas in them.** -/
theorem keysTell (n m : List String) : KeysTell n m where
  normalized_eq_iff := normalizeNamespaces_eq_iff
  normalized_twice := normalizeNamespaces_normalizeNamespaces n
  same_of_trim := sameNamespaces_of_trim
  key_eq_iff := listingKey?_eq_iff
  key_eq_iff_same := listingKey?_eq_iff_of_isCommaFree
  shared hkey := Session.list_of_listingKey?_eq hkey
  apart hne hpart := Session.reaches_of_listingKey?_ne hne hpart

/-- Lists of two namespaces that come to the same, and one of a single namespace. -/
theorem keysTell_blueRed : SameNamespaces [" red", "blue", "", "red"] ["blue", "red "]
    ∧ listingKey? [" red", "blue", "", "red"] = listingKey? ["blue", "red "]
    ∧ IsCommaFree (normalizeNamespaces ["blue"])
    ∧ IsCommaFree (normalizeNamespaces ["blue", "red "])
    ∧ ¬SameNamespaces ["blue"] ["blue", "red "]
    ∧ listingKey? ["blue"] ≠ listingKey? ["blue", "red "] := by
  have hsame : SameNamespaces [" red", "blue", "", "red"] ["blue", "red "] :=
    (keysTell _ _).normalized_eq_iff.mp (by decide)
  have hfree : ∀ n, (∀ name ∈ n, name ∈ ["blue", "red"]) → IsCommaFree n := by
    intro n hn name hname
    rcases List.mem_pair.mp (hn name hname) with rfl | rfl <;> decide
  have hblue : IsCommaFree (normalizeNamespaces ["blue"]) := hfree _ (by decide)
  have hred : IsCommaFree (normalizeNamespaces ["blue", "red "]) := hfree _ (by decide)
  have hother : ¬SameNamespaces ["blue"] ["blue", "red "] := fun h =>
    absurd ((keysTell _ _).normalized_eq_iff.mpr h) (by decide)
  refine ⟨hsame, (keysTell _ _).key_eq_iff.mpr (by decide), hblue, hred, hother, fun hkey => ?_⟩
  exact hother (((keysTell _ _).key_eq_iff_same hblue hred).mp hkey)

/-- One namespace with a comma in it has the key of two. -/
theorem listingKey?_eq_of_not_sameNamespaces :
    listingKey? ["blue,red"] = listingKey? ["blue", "red"]
      ∧ ¬SameNamespaces ["blue,red"] ["blue", "red"] := by
  refine ⟨by decide, fun hsame => ?_⟩
  exact absurd (normalizeNamespaces_eq_iff.mpr hsame) (by decide)

end Reconcile
