import Reconcile.Proofs.Drafting.Tasks
import Reconcile.Proofs.PlainText
import Reconcile.Proofs.Resolution.Foretelling

/-!
# Proofs/Resolution/Findings — what is found for a reference can be relied on

A reference that waits names another create of the batch with its reference and, if it is known, its
kind.  Where moreover no value is the text `[unknown]`, a reference with a value never looks like one
without (`Finding.Sound`, `Surroundings.sound_find`).  Over a snapshot it is enough that no
identifier, name or field is that text (`Scene.NowhereUnknown`): `Scene.sound_find`.
-/

namespace Reconcile

/-- What a finding promises on a reference of a change. -/
def Finding.Sound (upcoming : List Upcoming) (changeId : String) (kind : Option String)
    (ref : String) : Finding → Prop
  | .known value _ => value ≠ unknownId
  | .pending dependency _ => ∃ u ∈ upcoming, u.id = dependency ∧ u.id ≠ changeId ∧ u.ref = ref
      ∧ ∀ k, kind = some k → u.kind = k
  | .missing _ _ => True

namespace Surroundings

variable {s : Surroundings} {look : Look} {changeId : String} {kind : Option String}
  {r : Reference}

/-- The create that a reference waits for is another change with its reference and kind. -/
theorem of_upcoming? {ref : String} {u : Upcoming} (h : s.upcoming? changeId kind ref = some u) :
    u ∈ s.upcoming ∧ u.id ≠ changeId ∧ u.ref = ref ∧ ∀ k, kind = some k → u.kind = k := by
  have hpassed := List.find?_some h
  simp only [Bool.and_eq_true, beq_iff_eq, bne_iff_ne] at hpassed
  obtain ⟨⟨href, hid⟩, hkind⟩ := hpassed
  refine ⟨List.mem_of_find?_eq_some h, hid, href, ?_⟩
  rintro k rfl
  simpa using hkind

/-- What is settled without the remote side is ambiguous, declared, awaited, or of no known kind. -/
theorem examine_cases {finding : Finding} (h : s.examine changeId kind r = .settled finding) :
    (∃ reason, finding = .missing none reason)
    ∨ (∃ value name, finding = .known value name
      ∧ (s.declaredField? (s.index.find? kind r.target) r = some value
        ∨ s.declaredId? (s.index.find? kind r.target) r = some value))
    ∨ ∃ u name, finding = .pending u.id name ∧ s.upcoming? changeId kind r.target = some u := by
  unfold examine at h
  split at h
  · exact .inl ⟨_, (Examination.settled.inj h).symm⟩
  · dsimp only at h
    split at h
    · next value hvalue => exact .inr (.inl ⟨value, _, (Examination.settled.inj h).symm, .inl hvalue⟩)
    · split at h
      · next u hu => exact .inr (.inr ⟨u, _, (Examination.settled.inj h).symm, hu⟩)
      · split at h
        · next value hvalue =>
          exact .inr (.inl ⟨value, _, (Examination.settled.inj h).symm, .inr hvalue⟩)
        · split at h
          · exact .inl ⟨_, (Examination.settled.inj h).symm⟩
          · exact absurd h (by simp)

/-- What is found on the remote side has a value or is missing. -/
theorem conclude_cases (r : Reference) (k name : String) (found : Option Resource) :
    (∃ reason, conclude r k name found = .missing k reason)
    ∨ ∃ x value, found = some x ∧ x.answer? r = some value
      ∧ conclude r k name found = .known value x.name := by
  rcases found with _ | x
  · exact .inl ⟨_, rfl⟩
  · rw [conclude]
    split
    · next value hvalue => exact .inr ⟨x, value, rfl, hvalue, rfl⟩
    · exact .inl ⟨_, rfl⟩

/-- What was looked up waits for nothing. -/
theorem conclude_ne_pending (r : Reference) (k name : String) (found : Option Resource)
    (dependency name' : String) : conclude r k name found ≠ .pending dependency name' := by
  intro hpending
  obtain ⟨_, hmissing⟩ | ⟨_, _, -, -, hknown⟩ := conclude_cases r k name found
  · exact absurd (hmissing.symm.trans hpending) (by simp)
  · exact absurd (hknown.symm.trans hpending) (by simp)

/-- A value that was looked up is what the resource answers. -/
theorem answer?_of_conclude {k name value : String} {found : Option Resource}
    {name' : Option String} (h : conclude r k name found = .known value name') :
    ∃ x, found = some x ∧ x.answer? r = some value := by
  obtain ⟨_, hmissing⟩ | ⟨x, _, hx, hanswer, hknown⟩ := conclude_cases r k name found
  · exact absurd (hmissing.symm.trans h) (by simp)
  · obtain ⟨rfl, -⟩ := Finding.known.inj (hknown.symm.trans h)
    exact ⟨x, hx, hanswer⟩

/-- **What is found for a reference can be relied on**, if it is not the text `[unknown]`. -/
theorem sound_find (hne : ∀ name, s.find look changeId kind r ≠ .known unknownId name) :
    (s.find look changeId kind r).Sound s.upcoming changeId kind r.target := by
  rcases hfind : s.find look changeId kind r with ⟨value, name⟩ | ⟨dependency, name⟩ | ⟨k, reason⟩
  · rintro rfl
    exact hne name hfind
  · unfold find at hfind
    split at hfind
    · next finding hexamine =>
      subst hfind
      obtain ⟨_, h⟩ | ⟨_, _, h, -⟩ | ⟨u, _, h, hu⟩ := examine_cases hexamine
      · exact absurd h (by simp)
      · exact absurd h (by simp)
      · obtain ⟨rfl, -⟩ := Finding.pending.inj h
        obtain ⟨hmem, hid, href, hkind⟩ := of_upcoming? hu
        exact ⟨u, hmem, rfl, hid, href, hkind⟩
    · exact absurd hfind (conclude_ne_pending _ _ _ _ _ _)
  · trivial

end Surroundings

namespace Scene

/-- **Nothing that a reference can read is the text `[unknown]`**: no identifier, name or field of a
resource, and nothing that accessors read from a declaration. -/
structure NowhereUnknown (c : Scene) : Prop where
  id : ∀ r ∈ c.snapshot.resources, r.id ≠ unknownId
  name : ∀ r ∈ c.snapshot.resources, r.name ≠ unknownId
  field : ∀ r ∈ c.snapshot.resources, ∀ path,
    FieldMap.getPath? r.fields path ≠ some (.text unknownId)
  read : ∀ d ∈ c.desired.resources, ∀ path,
    c.accessors.read? d.kind path d ≠ some (.text unknownId)

/-- What is consulted for the references of a batch. -/
def around (c : Scene) (upcoming : List Upcoming) : Surroundings :=
  ⟨upcoming, c.desired.index, c.accessors⟩

variable {c : Scene} {upcoming : List Upcoming} {changeId : String} {kind : Option String}
  {r : Reference} {d : Declaration}

/-! ## Without the remote side -/

theorem ne_unknownId_of_read (h : c.NowhereUnknown) (hd : d ∈ c.desired.resources)
    {path value : String} (hread : (c.accessors.read? d.kind path d).map Value.plainText
      = some value) : value ≠ unknownId := by
  rintro rfl
  obtain ⟨v, hv, htext⟩ := Option.map_eq_some_iff.mp hread
  exact h.read d hd path (hv.trans (congrArg some (Value.eq_text_of_plainText htext)))

theorem declaredField?_ne (h : c.NowhereUnknown) {declared : Option Declaration}
    (hdeclared : ∀ d, declared = some d → d ∈ c.desired.resources) {value : String}
    (hvalue : (c.around upcoming).declaredField? declared r = some value) : value ≠ unknownId := by
  unfold Surroundings.declaredField? at hvalue
  split at hvalue
  · exact absurd hvalue (by simp)
  · obtain ⟨d, hd, hread⟩ := Option.bind_eq_some_iff.mp hvalue
    exact ne_unknownId_of_read h (hdeclared d hd) hread

theorem declaredId?_ne (h : c.NowhereUnknown) {declared : Option Declaration}
    (hdeclared : ∀ d, declared = some d → d ∈ c.desired.resources) {value : String}
    (hvalue : (c.around upcoming).declaredId? declared r = some value) : value ≠ unknownId := by
  unfold Surroundings.declaredId? at hvalue
  split at hvalue
  · exact absurd hvalue (by simp)
  · obtain ⟨d, hd, hread⟩ := Option.bind_eq_some_iff.mp hvalue
    exact ne_unknownId_of_read h (hdeclared d hd) (Option.filter_eq_some_iff.mp hread).1

/-! ## With the remote side -/

theorem answer?_ne (h : c.NowhereUnknown) {found : Resource} (hfound : found ∈ c.snapshot.resources)
    {value : String} (hvalue : found.answer? r = some value) : value ≠ unknownId := by
  unfold Resource.answer? at hvalue
  split at hvalue
  · obtain rfl := Option.some.inj hvalue
    exact h.id found hfound
  · split at hvalue
    · obtain rfl := Option.some.inj hvalue
      exact h.name found hfound
    · rintro rfl
      obtain ⟨v, hv, htext⟩ := Option.map_eq_some_iff.mp hvalue
      exact h.field found hfound r.field (hv.trans (congrArg some (Value.eq_text_of_plainText htext)))

/-- What is looked up is a resource of the snapshot. -/
theorem mem_of_look {snap : Snapshot} {k name : String} {x : Resource}
    (h : snap.look k name = some x) : x ∈ snap.resources := by
  unfold Snapshot.look at h
  split at h
  · exact (Snapshot.of_mem_managedIn (List.mem_of_find?_eq_some h)).1
  · exact absurd h (by simp)

theorem ne_unknownId_of_find (h : c.NowhereUnknown) {value : String} {name : Option String}
    (hfind : (c.around upcoming).find c.snapshot.look changeId kind r = .known value name) :
    value ≠ unknownId := by
  have hdeclared : ∀ d, c.desired.index.find? kind r.target = some d → d ∈ c.desired.resources :=
    fun d hd => List.mem_of_find?_eq_some hd
  unfold Surroundings.find at hfind
  split at hfind
  · next finding hexamine =>
    subst hfind
    obtain ⟨_, heq⟩ | ⟨_, _, heq, hvalue⟩ | ⟨_, _, heq, -⟩ := Surroundings.examine_cases hexamine
    · exact absurd heq (by simp)
    · obtain ⟨rfl, -⟩ := Finding.known.inj heq
      exact hvalue.elim (declaredField?_ne h hdeclared) (declaredId?_ne h hdeclared)
    · exact absurd heq (by simp)
  · obtain ⟨x, hx, hanswer⟩ := Surroundings.answer?_of_conclude hfind
    exact answer?_ne h (mem_of_look hx) hanswer

/-- **What is found over a snapshot can be relied on.** -/
theorem sound_find (h : c.NowhereUnknown) :
    ((c.around upcoming).find c.snapshot.look changeId kind r).Sound upcoming changeId kind
      r.target :=
  Surroundings.sound_find fun _ hfind => ne_unknownId_of_find h hfind rfl

end Scene

end Reconcile
