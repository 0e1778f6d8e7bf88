import Reconcile.Proofs.Validation.Rules

/-!
# Proofs/Validation/Exact — the faults that are listed are the rules that are broken

Going through a document lists the broken rules of each part behind those of the parts in front of
it (`Listed`), for a value along its steps, for a declaration along its attributes.  Main fact:
`validate_exact` — a document is accepted if and only if it is well formed; else every rule that is
broken at a place is listed once, in the order of the document, and the first is the one to fail
with.
-/

namespace Reconcile

/-! ## Lists of faults -/

/-- **Faults are listed**: those of the broken places, each once, in the order of the places. -/
def Listed {α : Type} (path : α → String) (Before : α → α → Prop) (found : List PlacedFault)
    (Broken : α → ValidationFault → Prop) : Prop :=
  ∃ places : List (α × ValidationFault), found = places.map (fun e => ⟨path e.1, e.2⟩)
    ∧ places.Pairwise (fun a b => Before a.1 b.1)
    ∧ ∀ place fault, (place, fault) ∈ places ↔ Broken place fault

namespace Listed

variable {α β : Type} {path : α → String} {Before : α → α → Prop} {found more : List PlacedFault}
  {Broken Broken' : α → ValidationFault → Prop}

theorem nil (h : ∀ place fault, ¬ Broken place fault) : Listed path Before [] Broken :=
  ⟨[], rfl, .nil, fun place fault => by simp [h place fault]⟩

theorem congr (h : Listed path Before found Broken)
    (hiff : ∀ place fault, Broken place fault ↔ Broken' place fault) :
    Listed path Before found Broken' := by
  obtain ⟨places, hfound, hsorted, hmem⟩ := h
  exact ⟨places, hfound, hsorted, fun place fault => (hmem place fault).trans (hiff place fault)⟩

theorem imp (h : Listed path Before found Broken) {Before' : α → α → Prop}
    (himp : ∀ p q, Before p q → Before' p q) : Listed path Before' found Broken := by
  obtain ⟨places, hfound, hsorted, hmem⟩ := h
  exact ⟨places, hfound, hsorted.imp fun hab => himp _ _ hab, hmem⟩

/-- One rule at one place. -/
theorem ofFaultIf (place : α) {broken : Bool} {fault : ValidationFault} :
    Listed path Before (faultIf broken (path place) fault)
      (fun p f => broken = true ∧ p = place ∧ f = fault) := by
  cases broken with
  | false => exact nil (by simp)
  | true => exact ⟨[(place, fault)], rfl, List.pairwise_singleton .., by simp⟩

/-- One part of a document behind another. -/
theorem append (h : Listed path Before found Broken) (h' : Listed path Before more Broken')
    (hbefore : ∀ p f q g, Broken p f → Broken' q g → Before p q) :
    Listed path Before (found ++ more) (fun p f => Broken p f ∨ Broken' p f) := by
  obtain ⟨places, rfl, hsorted, hmem⟩ := h
  obtain ⟨places', rfl, hsorted', hmem'⟩ := h'
  refine ⟨places ++ places', by rw [List.map_append], ?_, fun p f => ?_⟩
  · refine List.pairwise_append.mpr ⟨hsorted, hsorted', fun a ha b hb => ?_⟩
    exact hbefore _ _ _ _ ((hmem ..).mp ha) ((hmem' ..).mp hb)
  · rw [List.mem_append, hmem, hmem']

/-- A part of a document at its place in the whole. -/
theorem map (h : Listed path Before found Broken) (inside : α → β) {path' : β → String}
    {Before' : β → β → Prop} (hpath : ∀ p, path' (inside p) = path p)
    (hbefore : ∀ p q, Before p q → Before' (inside p) (inside q)) :
    Listed path' Before' found (fun q f => ∃ p, q = inside p ∧ Broken p f) := by
  obtain ⟨places, rfl, hsorted, hmem⟩ := h
  refine ⟨places.map fun e => (inside e.1, e.2), ?_, ?_, fun q f => ?_⟩
  · simp [Function.comp_def, hpath]
  · exact List.pairwise_map.mpr (hsorted.imp fun hab => hbefore _ _ hab)
  · simp only [List.mem_map, Prod.mk.injEq, Prod.exists]
    constructor
    · rintro ⟨p, g, hp, rfl, rfl⟩
      exact ⟨p, rfl, (hmem p g).mp hp⟩
    · rintro ⟨p, rfl, hp⟩
      exact ⟨p, f, (hmem p f).mpr hp, rfl, rfl⟩

theorem eq_nil_iff (h : Listed path Before found Broken) :
    found = [] ↔ ∀ place fault, ¬ Broken place fault := by
  obtain ⟨places, rfl, -, hmem⟩ := h
  rw [List.map_eq_nil_iff, List.eq_nil_iff_forall_not_mem]
  simp only [Prod.forall, hmem]

end Listed

/-! ## Field values -/

namespace Value

/-- A value breaks a rule behind steps. -/
def Breaks (v : Value) (steps : List Step) (fault : ValidationFault) : Prop :=
  ∃ leaf, v.Reaches steps leaf ∧ leaf.Flaw fault

section Breaks

variable {steps : List Step} {fault : ValidationFault}

theorem breaks_iff_of_leaf {v : Value} (hleaf : v.IsLeaf) :
    v.Breaks steps fault ↔ v.Flaw fault ∧ steps = [] := by
  constructor
  · rintro ⟨leaf, hreach, hflaw⟩
    cases hreach with
    | here => exact ⟨hflaw, rfl⟩
    | item => exact absurd hleaf not_false
    | entry => exact absurd hleaf not_false
  · rintro ⟨hflaw, rfl⟩
    exact ⟨v, .here v, hflaw⟩

theorem breaks_list_iff {items : List Value} : (list items).Breaks steps fault
    ↔ ∃ i v rest, steps = .item i :: rest ∧ items[i]? = some v ∧ v.Breaks rest fault := by
  constructor
  · rintro ⟨leaf, hreach, hflaw⟩
    cases hreach with
    | here => cases hflaw
    | item hv h => exact ⟨_, _, _, rfl, hv, leaf, h, hflaw⟩
  · rintro ⟨i, v, rest, rfl, hv, leaf, h, hflaw⟩
    exact ⟨leaf, .item hv h, hflaw⟩

theorem breaks_map_iff {entries : List (String × Value)} : (map entries).Breaks steps fault
    ↔ ∃ key v rest, steps = .key key :: rest ∧ (key, v) ∈ entries ∧ v.Breaks rest fault := by
  constructor
  · rintro ⟨leaf, hreach, hflaw⟩
    cases hreach with
    | here => cases hflaw
    | entry hv h => exact ⟨_, _, _, rfl, hv, leaf, h, hflaw⟩
  · rintro ⟨key, v, rest, rfl, hv, leaf, h, hflaw⟩
    exact ⟨leaf, .entry hv h, hflaw⟩

end Breaks

/-- The faults listed for a value, or for a part of one, are those behind the steps into it; they
come in order where maps list their keys in order. -/
abbrev ListedAt (base : String) (ordered : Prop) :=
  Listed (fun steps => base ++ Step.textOf steps) (fun s t => ordered → List.Lex Step.Before s t)

variable {base : String} {ordered : Prop}

theorem listed_faultIf {broken : Bool} {fault : ValidationFault} :
    ListedAt base ordered (faultIf broken base fault)
      fun steps f => broken = true ∧ steps = [] ∧ f = fault := by
  have hlisted : ListedAt base ordered (faultIf broken (base ++ Step.textOf []) fault) _ :=
    Listed.ofFaultIf []
  rwa [Step.textOf, String.append_empty] at hlisted

theorem listed_leaf {v : Value} (hleaf : v.IsLeaf) :
    ListedAt base ordered (valueFaults base v) v.Breaks := by
  cases v with
  | text s =>
    rw [valueFaults, textFaults]
    refine listed_faultIf.congr fun steps fault => ?_
    rw [breaks_iff_of_leaf hleaf, Reference.isMarked_iff]
    constructor
    · rintro ⟨hmark, rfl, rfl⟩
      exact ⟨.text hmark, rfl⟩
    · rintro ⟨⟨hmark⟩, rfl⟩
      exact ⟨hmark, rfl, rfl⟩
  | reference r =>
    rw [valueFaults]
    refine listed_faultIf.congr fun steps fault => ?_
    rw [breaks_iff_of_leaf hleaf, Reference.isAmbiguous_iff]
    constructor
    · rintro ⟨hambiguous, rfl, rfl⟩
      exact ⟨.reference hambiguous, rfl⟩
    · rintro ⟨⟨⟩, rfl⟩
      exact ⟨‹_›, rfl, rfl⟩
  | list => exact absurd hleaf not_false
  | map => exact absurd hleaf not_false
  | _ =>
    refine .nil fun steps fault hbreaks => ?_
    cases ((breaks_iff_of_leaf hleaf).mp hbreaks).1

/-- Items come behind each other, each with the faults of its value. -/
theorem listed_itemFaults {items : List Value}
    (h : ∀ v ∈ items, ∀ base, ListedAt base v.Ordered (valueFaults base v) v.Breaks) (i : Nat) :
    ListedAt base (∀ v ∈ items, v.Ordered) (itemFaults base i items) fun steps fault =>
      ∃ j v rest, steps = .item (i + j) :: rest ∧ items[j]? = some v ∧ v.Breaks rest fault := by
  induction items generalizing i with
  | nil => exact .nil (by simp)
  | cons v items ih =>
    obtain ⟨hv, hitems⟩ := List.forall_mem_cons.mp h
    have hfirst : ListedAt base (∀ w ∈ v :: items, w.Ordered) (valueFaults (itemPath base i) v) _ :=
      (hv (itemPath base i)).map (.item i :: ·)
        (by simp [Step.textOf, Step.text, itemPath, String.append_assoc])
        fun s t hst hordered => .cons (hst (hordered v List.mem_cons_self))
    have hrest : ListedAt base (∀ w ∈ v :: items, w.Ordered) (itemFaults base (i + 1) items) _ :=
      (ih hitems (i + 1)).imp fun s t hst hordered => hst fun w hw => hordered w (.tail _ hw)
    rw [itemFaults]
    refine (hfirst.append hrest ?_).congr fun steps fault => ?_
    · rintro _ _ _ _ ⟨s, rfl, -⟩ ⟨j, w, t, rfl, -⟩ -
      exact .rel (.item (by omega))
    · constructor
      · rintro (⟨rest, rfl, hbreaks⟩ | ⟨j, w, rest, rfl, hw, hbreaks⟩)
        · exact ⟨0, v, rest, rfl, rfl, hbreaks⟩
        · exact ⟨j + 1, w, rest, by rw [Nat.add_right_comm, Nat.add_assoc], hw, hbreaks⟩
      · rintro ⟨_ | j, w, rest, rfl, hw, hbreaks⟩
        · obtain rfl : v = w := by simpa using hw
          exact .inl ⟨rest, rfl, hbreaks⟩
        · exact .inr ⟨j, w, rest, by rw [Nat.add_right_comm, Nat.add_assoc], hw, hbreaks⟩

/-- Entries come behind each other, each with the faults of its value. -/
theorem listed_entryFaults {entries : List (String × Value)}
    (h : ∀ e ∈ entries, ∀ base, ListedAt base e.2.Ordered (valueFaults base e.2) e.2.Breaks) :
    ListedAt base (Entries.Ascending entries ∧ ∀ e ∈ entries, e.2.Ordered)
      (entryFaults base entries) fun steps fault =>
      ∃ key v rest, steps = .key key :: rest ∧ (key, v) ∈ entries ∧ v.Breaks rest fault := by
  induction entries with
  | nil => exact .nil (by simp)
  | cons e entries ih =>
    obtain ⟨key, v⟩ := e
    obtain ⟨hv, hentries⟩ := List.forall_mem_cons.mp h
    let ordered := Entries.Ascending ((key, v) :: entries)
      ∧ ∀ e ∈ (key, v) :: entries, e.2.Ordered
    have hfirst : ListedAt base ordered (valueFaults (base ++ "." ++ key) v) _ :=
      (hv (base ++ "." ++ key)).map (.key key :: ·)
        (by simp [Step.textOf, Step.text, String.append_assoc])
        fun s t hst hordered => .cons (hst (hordered.2 (key, v) List.mem_cons_self))
    have hrest : ListedAt base ordered (entryFaults base entries) _ :=
      (ih hentries).imp fun s t hst hordered =>
        hst ⟨(List.pairwise_cons.mp hordered.1).2, fun e he => hordered.2 e (.tail _ he)⟩
    rw [entryFaults]
    refine (hfirst.append hrest ?_).congr fun steps fault => ?_
    · rintro _ _ _ _ ⟨s, rfl, -⟩ ⟨k, w, t, rfl, hw, -⟩ hordered
      exact .rel (.key ((List.pairwise_cons.mp hordered.1).1 (k, w) hw))
    · constructor
      · rintro (⟨rest, rfl, hbreaks⟩ | ⟨k, w, rest, rfl, hw, hbreaks⟩)
        · exact ⟨key, v, rest, rfl, List.mem_cons_self, hbreaks⟩
        · exact ⟨k, w, rest, rfl, .tail _ hw, hbreaks⟩
      · rintro ⟨k, w, rest, rfl, hw, hbreaks⟩
        rcases List.mem_cons.mp hw with heq | hw
        · cases heq
          exact .inl ⟨rest, rfl, hbreaks⟩
        · exact .inr ⟨k, w, rest, rfl, hw, hbreaks⟩

/-- **The faults listed for a value are those behind the steps into it.** -/
theorem listed_valueFaults (v : Value) (base : String) :
    ListedAt base v.Ordered (valueFaults base v) v.Breaks := by
  induction v using inductionOn generalizing base with
  | list items ih =>
    rw [valueFaults]
    have hlisted : ListedAt base (list items).Ordered (itemFaults base 0 items) _ :=
      (listed_itemFaults ih 0).imp fun s t hst hordered => hst (ordered_list_iff.mp hordered)
    exact hlisted.congr fun steps fault => by simp only [breaks_list_iff, Nat.zero_add]
  | map entries ih =>
    rw [valueFaults]
    have hlisted : ListedAt base (map entries).Ordered (entryFaults base entries) _ :=
      (listed_entryFaults ih).imp fun s t hst hordered => hst (ordered_map_iff.mp hordered)
    exact hlisted.congr fun steps fault => breaks_map_iff.symm
  | _ => exact listed_leaf trivial

end Value

/-! ## Declarations -/

theorem isBlank_of_isSmallLetter {c : Char} (h : isSmallLetter c = true) : isBlank c = false := by
  have hrange : 97 ≤ c.toNat ∧ c.toNat ≤ 122 := by
    rwa [isSmallLetter, Bool.and_eq_true, decide_eq_true_eq, decide_eq_true_eq] at h
  exact isBlank_of_visible (by omega) (by omega)

theorem isKind_of_isBlankText {kind : String} (hblank : isBlankText kind = true) :
    isKind kind = false := by
  rw [Bool.eq_false_iff, Ne, isKind_iff]
  rintro ⟨first, rest, hkind, hfirst, -⟩
  simp [isBlankText, hkind, isBlank_of_isSmallLetter hfirst] at hblank

theorem isEmpty_or_hasBlankOrHash {ref : String} (hblank : isBlankText ref = true) :
    (ref.isEmpty || hasBlankOrHash ref) = true := by
  rw [isBlankText] at hblank
  cases hchars : ref.toList with
  | nil => simp [String.toList_eq_nil_iff.mp hchars]
  | cons c cs =>
    rw [hchars, List.all_cons, Bool.and_eq_true] at hblank
    simp [hasBlankOrHash, hchars, hblank.1]

/-- A text of blanks is no kind either. -/
theorem kindFaults_eq (field kind : String) :
    kindFaults field kind = faultIf (!isKind kind) field (kindFault kind) := by
  unfold kindFaults kindFault
  split
  · next hblank =>
    rw [isKind_of_isBlankText hblank]
    rfl
  · rfl

/-- A text of blanks is no reference either. -/
theorem refFaults_eq (field ref : String) :
    refFaults field ref = faultIf (ref.isEmpty || hasBlankOrHash ref) field (refFault ref) := by
  unfold refFaults refFault
  split
  · next hblank =>
    rw [isEmpty_or_hasBlankOrHash hblank]
    rfl
  · next hvisible =>
    have hempty : ref.isEmpty = false := by
      rw [Bool.eq_false_iff]
      intro hempty
      obtain rfl := String.isEmpty_iff.mp hempty
      exact hvisible rfl
    rw [hempty, Bool.false_or]

theorem spellsRef_iff {ref : String} :
    (ref.isEmpty || hasBlankOrHash ref) = true ↔ ¬ SpellsRef ref := by
  rw [SpellsRef, ← hasBlankOrHash_iff, Bool.or_eq_true, String.isEmpty_iff]
  cases hasBlankOrHash ref <;> simp

/-- An optional namespace. -/
theorem Listed.ofScope {α : Type} {path : α → String} {Before : α → α → Prop} (place : α)
    (scope : Option String) :
    Listed path Before ((scope.map (namespaceFaults (path place))).getD []) fun p f =>
      ∃ name, scope = some name ∧ ¬ SpellsScope name ∧ p = place
        ∧ f = .malformedNamespace name := by
  cases scope with
  | none => exact .nil (by simp)
  | some name =>
    rw [Option.map_some, Option.getD_some, namespaceFaults]
    refine (Listed.ofFaultIf place).congr fun p f => ?_
    simp [← isNamespace_iff]

theorem Declaration.isOwnParent_iff {d : Declaration} :
    d.isOwnParent = true ↔ d.parent = some ⟨d.kind, d.ref⟩ := by
  rw [isOwnParent]
  cases d.parent with
  | none => simp
  | some p =>
    obtain ⟨kind, ref⟩ := p
    simp

/-- Faults are listed for attributes below a rank. -/
def ListedBelow (path : Attribute → String) (ordered : Prop) (n : Nat) (found : List PlacedFault)
    (Broken : Attribute → ValidationFault → Prop) : Prop :=
  Listed path (fun a b => ordered → a.Before b) found Broken
    ∧ ∀ part fault, Broken part fault → part.rank < n

/-- The attribute of the next rank comes behind them. -/
theorem ListedBelow.append {path : Attribute → String} {ordered : Prop} {n : Nat}
    {found more : List PlacedFault} {Broken Broken' : Attribute → ValidationFault → Prop}
    (h : ListedBelow path ordered n found Broken)
    (h' : Listed path (fun a b => ordered → a.Before b) more Broken')
    (hrank : ∀ part fault, Broken' part fault → part.rank = n) :
    ListedBelow path ordered (n + 1) (found ++ more)
      fun part fault => Broken part fault ∨ Broken' part fault := by
  refine ⟨h.1.append h' fun p f q g hp hq _ => .rank ?_, ?_⟩
  · rw [hrank q g hq]
    exact h.2 p f hp
  · rintro part fault (hpart | hpart)
    · exact Nat.lt_succ_of_lt (h.2 part fault hpart)
    · exact (hrank part fault hpart).trans_lt (Nat.lt_succ_self n)

/-- **The faults listed for a declaration behind others are those at its attributes.** -/
theorem Declaration.listed_faults (d : Declaration) {earlier : List Declaration}
    {seen : List (String × String)}
    (hseen : (d.kind, d.ref) ∈ seen ↔ ∃ e ∈ earlier, e.kind = d.kind ∧ e.ref = d.ref)
    (path : String) :
    Listed (fun part => path ++ Attribute.text part) (fun a b => d.fields.Ordered → a.Before b)
      (d.faults path ++ faultIf (!d.ref.isEmpty && seen.contains (d.kind, d.ref)) (path ++ ".ref")
        (.duplicate d.kind d.ref)) (d.Flaw earlier) := by
  let pathOf (part : Attribute) := path ++ part.text
  let Before (a b : Attribute) := d.fields.Ordered → a.Before b
  have hone (part : Attribute) (broken : Bool) (fault : ValidationFault) :
      Listed pathOf Before (faultIf broken (pathOf part) fault)
        fun p f => broken = true ∧ p = part ∧ f = fault := Listed.ofFaultIf part
  have hscope : Listed pathOf Before ((d.scope.map (namespaceFaults (pathOf .scope))).getD []) _ :=
    Listed.ofScope Attribute.scope d.scope
  have hvalues : Listed pathOf Before (entryFaults (path ++ ".fields") d.fields.entries) _ :=
    ((Value.map d.fields.entries).listed_valueFaults (path ++ ".fields")).map .value
      (fun steps => (String.append_assoc ..).symm) fun s t hst hordered =>
        .value (hst (Value.ordered_map_iff.mpr ⟨d.fields.ascending, hordered⟩))
  -- the attributes in the order in which they are checked, each behind those in front of it
  have hkind : ListedBelow pathOf d.fields.Ordered 1 _ _ :=
    ⟨hone .kind (!isKind d.kind) (kindFault d.kind), fun _ _ h => by rw [h.2.1]; decide⟩
  have href := hkind.append (hone .ref (d.ref.isEmpty || hasBlankOrHash d.ref) (refFault d.ref))
    fun _ _ h => by rw [h.2.1]; rfl
  have hname := href.append (hone .name (isBlankText d.name) (.emptyName d.kind d.ref))
    fun _ _ h => by rw [h.2.1]; rfl
  have hscope := hname.append hscope fun _ _ ⟨_, _, _, h, _⟩ => by rw [h]; rfl
  have hparent := hscope.append (hone .parent d.isOwnParent (.ownParent d.kind d.ref))
    fun _ _ h => by rw [h.2.1]; rfl
  have hvalues := hparent.append hvalues fun _ _ ⟨_, h, _⟩ => by rw [h]; rfl
  have hdistinct := hvalues.append (hone .distinct (!d.ref.isEmpty && seen.contains (d.kind, d.ref))
    (.duplicate d.kind d.ref)) fun _ _ h => by rw [h.2.1]; rfl
  rw [Declaration.faults, kindFaults_eq, refFaults_eq]
  refine hdistinct.1.congr fun part fault => ?_
  simp only [Bool.not_eq_true', ← Bool.not_eq_true, isKind_iff, spellsRef_iff, isOwnParent_iff,
    Bool.and_eq_true, String.isEmpty_iff, List.contains_iff_mem, hseen]
  constructor
  · rintro ((((((h | h) | h) | h) | h) | h) | h)
    · obtain ⟨h, rfl, rfl⟩ := h
      exact .kind h
    · obtain ⟨h, rfl, rfl⟩ := h
      exact .ref h
    · obtain ⟨h, rfl, rfl⟩ := h
      exact .name (List.all_eq_true.mp h)
    · obtain ⟨name, hname, h, rfl, rfl⟩ := h
      exact .scope hname h
    · obtain ⟨h, rfl, rfl⟩ := h
      exact .parent h
    · obtain ⟨steps, rfl, leaf, hleaf, h⟩ := h
      exact .value hleaf h
    · obtain ⟨⟨hempty, h⟩, rfl, rfl⟩ := h
      exact .distinct hempty h
  · intro hflaw
    cases hflaw with
    | kind h => simp [h]
    | ref h => simp [h]
    | name h => simp [isBlankText, List.all_eq_true.mpr h]
    | scope hname h => simp [hname, h]
    | parent h => simp [h]
    | value hleaf h => exact .inl (.inr ⟨_, rfl, _, hleaf, h⟩)
    | distinct hempty h => exact .inr ⟨⟨hempty, h⟩, rfl, rfl⟩

/-! ## Documents -/

/-- **The faults listed for declarations are those of each one behind the others.** -/
theorem listed_declarationFaults {all earlier rest : List Declaration}
    (hall : all = earlier ++ rest) {seen : List (String × String)}
    (hseen : ∀ kind ref, (kind, ref) ∈ seen ↔ ∃ e ∈ earlier, e.kind = kind ∧ e.ref = ref) :
    Listed Check.path (fun a b => (∀ d ∈ rest, d.fields.Ordered) → a.Before b)
      (declarationFaults earlier.length seen rest) fun place fault =>
        ∃ i d part, place = .resource i part ∧ earlier.length ≤ i ∧ all[i]? = some d
          ∧ d.Flaw (all.take i) part fault := by
  induction rest generalizing earlier seen with
  | nil =>
    refine .nil ?_
    rintro place fault ⟨i, d, part, -, hi, hd, -⟩
    rw [hall, List.append_nil, List.getElem?_eq_none hi] at hd
    cases hd
  | cons d rest ih =>
    let Before (a b : Check) := (∀ e ∈ d :: rest, e.fields.Ordered) → a.Before b
    have hfirst : Listed Check.path Before _ _ :=
      (d.listed_faults (hseen d.kind d.ref) (resourcePath earlier.length)).map
        (.resource earlier.length) (fun part => rfl)
        fun a b hab hordered => .part (hab (hordered d List.mem_cons_self))
    have hseen' (kind ref : String) : (kind, ref) ∈ (d.kind, d.ref) :: seen
        ↔ ∃ e ∈ earlier ++ [d], e.kind = kind ∧ e.ref = ref := by
      simp [hseen, or_comm, eq_comm]
    have hrest : Listed Check.path Before (declarationFaults (earlier ++ [d]).length _ rest) _ :=
      (ih (by simp [hall]) hseen').imp fun a b hab hordered =>
        hab fun e he => hordered e (.tail _ he)
    rw [List.length_append, List.length_singleton] at hrest
    have hd : all[earlier.length]? = some d := by simp [hall]
    have htake : all.take earlier.length = earlier := by simp [hall]
    rw [declarationFaults]
    refine (hfirst.append hrest ?_).congr fun place fault => ?_
    · rintro _ _ _ _ ⟨part, rfl, -⟩ ⟨i, e, part', rfl, hi, -⟩ -
      exact .resource hi
    · constructor
      · rintro (⟨part, rfl, hflaw⟩ | ⟨i, e, part, rfl, hi, he, hflaw⟩)
        · exact ⟨_, d, part, rfl, le_rfl, hd, htake.symm ▸ hflaw⟩
        · exact ⟨i, e, part, rfl, by omega, he, hflaw⟩
      · rintro ⟨i, e, part, rfl, hi, he, hflaw⟩
        rcases hi.eq_or_lt with rfl | hi
        · obtain rfl : d = e := Option.some.inj (hd.symm.trans he)
          exact .inl ⟨part, rfl, htake ▸ hflaw⟩
        · exact .inr ⟨i, e, part, rfl, hi, he, hflaw⟩

/-- The faults listed for default namespaces are those of each of them. -/
theorem listed_defaultScopes (names : List String) (k : Nat) :
    Listed Check.path Check.Before
      ((names.zipIdx k).flatMap fun e => namespaceFaults (itemPath "defaults.namespaces" e.2) e.1)
      fun place fault => ∃ i name, names[i]? = some name ∧ ¬ SpellsScope name
        ∧ place = .defaultScopes (k + i) ∧ fault = .malformedNamespace name := by
  induction names generalizing k with
  | nil => exact .nil (by simp)
  | cons name names ih =>
    have hfirst : Listed Check.path Check.Before
        (namespaceFaults (itemPath "defaults.namespaces" k) name) _ :=
      Listed.ofScope (Check.defaultScopes k) (some name)
    rw [List.zipIdx_cons, List.flatMap_cons]
    refine (hfirst.append (ih (k + 1)) ?_).congr fun place fault => ?_
    · rintro _ _ _ _ ⟨_, -, -, rfl, -⟩ ⟨i, _, -, -, rfl, -⟩
      exact .defaultScopes (by omega)
    · constructor
      · rintro (⟨other, hother, h⟩ | ⟨i, other, hother, h, rfl, rfl⟩)
        · exact ⟨0, other, hother, h⟩
        · exact ⟨i + 1, other, hother, h, by rw [Nat.add_right_comm, Nat.add_assoc], rfl⟩
      · rintro ⟨_ | i, other, hother, h, rfl, rfl⟩
        · exact .inl ⟨other, hother, h, rfl, rfl⟩
        · exact .inr ⟨i, other, hother, h, by rw [Nat.add_right_comm, Nat.add_assoc], rfl⟩

namespace DesiredState

variable {s : DesiredState}

/-- **The faults listed for a document are the rules that it breaks.** -/
theorem listed_faults (s : DesiredState) :
    Listed Check.path (fun a b => s.FieldsOrdered → a.Before b) s.faults s.Breaks := by
  have hscope : Listed Check.path Check.Before
      ((s.defaults.scope.map (namespaceFaults "defaults.namespace")).getD []) _ :=
    Listed.ofScope Check.defaultScope s.defaults.scope
  have hdefaults : Listed Check.path Check.Before s.defaults.faults _ :=
    hscope.append (listed_defaultScopes s.defaults.scopes 0) fun _ _ _ _ hp hq => by
      obtain ⟨_, -, -, rfl, -⟩ := hp
      obtain ⟨i, _, -, -, rfl, -⟩ := hq
      exact .rank (by simp [Check.rank])
  let Before (a b : Check) := s.FieldsOrdered → a.Before b
  have hdefaults : Listed Check.path Before s.defaults.faults _ := hdefaults.imp fun a b hab _ => hab
  have hresources : Listed Check.path Before
      (declarationFaults ([] : List Declaration).length [] s.resources) _ :=
    listed_declarationFaults rfl (by simp)
  refine (hdefaults.append hresources ?_).congr fun place fault => ?_
  · rintro _ _ _ _ (⟨_, -, -, rfl, -⟩ | ⟨i, _, -, -, rfl, -⟩) ⟨j, d, part, rfl, -⟩ -
    all_goals exact .rank (by simp [Check.rank])
  · constructor
    · rintro ((⟨name, hname, h, rfl, rfl⟩ | ⟨i, name, hname, h, rfl, rfl⟩)
        | ⟨i, d, part, rfl, -, hd, h⟩)
      · exact .defaultScope hname h
      · rw [Nat.zero_add]
        exact .defaultScopes hname h
      · exact .resource hd h
    · intro hbreaks
      cases hbreaks with
      | defaultScope hname h => exact .inl (.inl ⟨_, hname, h, rfl, rfl⟩)
      | defaultScopes hname h => exact .inl (.inr ⟨_, _, hname, h, by rw [Nat.zero_add], rfl⟩)
      | resource hd h => exact .inr ⟨_, _, _, rfl, Nat.zero_le _, hd, h⟩

theorem accepted_iff_faults : s.Accepted ↔ s.faults = [] := by
  refine ⟨faults_eq_nil, fun h => ?_⟩
  rw [Accepted, validate, h]

/-- **What validation reports of a document**: every rule that is broken at a place, once, in the
order of the document, and the first of them as the one to fail with. -/
structure Reported (s : DesiredState) (found : List (Check × ValidationFault)) : Prop where
  faults_eq : s.faults = found.map fun e => ⟨e.1.path, e.2⟩
  mem_iff (place : Check) (fault : ValidationFault) : (place, fault) ∈ found ↔ s.Breaks place fault
  sorted : found.Pairwise fun a b => a.1.Before b.1
  nodup : (found.map (·.1)).Nodup
  validate_eq : s.validate = match found with
    | [] => .ok ()
    | first :: _ => .error (.document (.invalid first.2.message first.1.path))

/-- There is one list to report. -/
theorem Reported.unique {found found' : List (Check × ValidationFault)} (h : s.Reported found)
    (h' : s.Reported found') : found = found' := by
  have hasymm : Std.Asymm fun a b : Check × ValidationFault => a.1.Before b.1 :=
    ⟨fun a b hab hba => Std.Asymm.asymm a.1 b.1 hab hba⟩
  exact h.sorted.eq_of_mem_iff h'.sorted fun e => (h.mem_iff ..).trans (h'.mem_iff ..).symm

/-- **Validation is exact**: it accepts the documents that are well formed, and reports of another
one which rules it breaks at which places. -/
theorem validate_exact (s : DesiredState) : (s.validate = .ok () ↔ s.WellFormed)
    ∧ (s.FieldsOrdered → ∃! found, s.Reported found) := by
  constructor
  · exact accepted_iff_faults.trans
      (s.listed_faults.eq_nil_iff.trans wellFormed_iff_not_breaks.symm)
  · intro hordered
    obtain ⟨found, hfaults, hsorted, hmem⟩ := s.listed_faults
    have hsorted : found.Pairwise fun a b => a.1.Before b.1 := hsorted.imp fun hab => hab hordered
    have hreported : s.Reported found := {
      faults_eq := hfaults
      mem_iff := hmem
      sorted := hsorted
      nodup := List.pairwise_map.mpr (hsorted.imp fun hab => ne_of_irrefl (r := Check.Before) hab)
      validate_eq := by
        rw [validate, hfaults]
        cases found <;> rfl }
    exact ⟨found, hreported, fun other hother => hother.unique hreported⟩

/-- A document with broken rules of all sorts, some of them at places with the same path. -/
def flawedCatalog : DesiredState where
  defaults := { scope := some "-edge", scopes := ["default", "Upper"] }
  resources := [
    { kind := "portal", ref := "a", name := "A", fields := .ofList [
      ("link.to", .reference ⟨"b c", "id"⟩),
      ("link", .map [("from", .list [.text "x", .text "__REF__:"]), ("to", .text "__REF__:b")])] },
    { kind := "portal", ref := "a", name := " ", scope := some "", parent := some ⟨"portal", "a"⟩ },
    { kind := "9", ref := " ", name := "C" },
    { kind := " ", ref := "a", name := "D" }]

/-- Every rule that is broken is reported once, where two come from one path as two. -/
theorem validate_exact_flawedCatalog : flawedCatalog.FieldsOrdered
    ∧ (∃! found, flawedCatalog.Reported found)
    ∧ flawedCatalog.faults.map (·.field) = ["defaults.namespace", "defaults.namespaces[1]",
      "resources[0].fields.link.from[1]", "resources[0].fields.link.to",
      "resources[0].fields.link.to", "resources[1].name", "resources[1].namespace",
      "resources[1].parent", "resources[1].ref", "resources[2].type", "resources[2].ref",
      "resources[3].type"] := by
  have hordered : flawedCatalog.FieldsOrdered := by decide
  exact ⟨hordered, (validate_exact flawedCatalog).2 hordered, by decide⟩

end DesiredState

end Reconcile
