import Reconcile.Proofs.Accepted
import Reconcile.Proofs.Documents.States

/-!
# Proofs/Validation/Rules — the rules for documents and the places they are for

A document is well formed (`DesiredState.WellFormed`) if its names are spelled as such, its
declarations differ and its field values hold nothing that reads as another value.  A `Check` is a
rule at one place of a document; checks come in the order of the document (`Check.Before`), and
`DesiredState.Breaks` says which of them fail, and how.  Main fact: `wellFormed_iff_not_breaks` — a
document is well formed if and only if it breaks no rule anywhere.
-/

namespace Reconcile

/-! ## Spelling -/

/-- **A namespace**: 1 to 63 bytes of small letters, digits and hyphens, with no hyphen at either
end. -/
structure SpellsScope (name : String) : Prop where
  nonempty : 1 ≤ name.utf8ByteSize
  short : name.utf8ByteSize ≤ 63
  spelled : IsSpelled name
  head : name.toList.head? ≠ some '-'
  last : name.toList.getLast? ≠ some '-'

/-- **A kind**: a small letter, then small letters, digits and underscores. -/
def SpellsKind (kind : String) : Prop :=
  ∃ first rest, kind.toList = first :: rest ∧ isSmallLetter first = true
    ∧ ∀ c ∈ rest, (isSmallLetter c || c.isDigit || c == '_') = true

/-- No character is a blank or a `#`. -/
def NoBlankOrHash (name : String) : Prop := ∀ c ∈ name.toList, isBlank c = false ∧ c ≠ '#'

/-- **A reference**: some characters, and neither blanks nor a `#` among them. -/
def SpellsRef (ref : String) : Prop := ref ≠ "" ∧ NoBlankOrHash ref

theorem isNamespace_iff {name : String} : isNamespace name = true ↔ SpellsScope name := by
  have hempty : name.toList.isEmpty = false ↔ 1 ≤ name.utf8ByteSize := by
    rw [Nat.one_le_iff_ne_zero, Ne, String.utf8ByteSize_eq_zero_iff, ← String.toList_eq_nil_iff,
      ← List.isEmpty_iff, Bool.not_eq_true]
  simp only [isNamespace, Bool.and_eq_true, Bool.not_eq_true', hempty, decide_eq_true_eq,
    List.all_eq_true, bne_iff_ne]
  constructor
  · rintro ⟨⟨⟨⟨hnonempty, hshort⟩, hspelled⟩, hhead⟩, hlast⟩
    exact ⟨hnonempty, hshort, hspelled, hhead, hlast⟩
  · rintro ⟨hnonempty, hshort, hspelled, hhead, hlast⟩
    exact ⟨⟨⟨⟨hnonempty, hshort⟩, hspelled⟩, hhead⟩, hlast⟩

theorem isKind_iff {kind : String} : isKind kind = true ↔ SpellsKind kind := by
  unfold isKind SpellsKind
  cases kind.toList with
  | nil => simp
  | cons first rest => simp

theorem hasBlankOrHash_iff {name : String} : hasBlankOrHash name = false ↔ NoBlankOrHash name := by
  simp [hasBlankOrHash, NoBlankOrHash]

/-! ## Field values -/

namespace Reference

/-- **A reference is ambiguous**: written down, it could be another one. -/
def Ambiguous (r : Reference) : Prop := ¬ NoBlankOrHash r.target ∨ '#' ∈ r.field.toList

theorem isAmbiguous_iff {r : Reference} : r.isAmbiguous = true ↔ r.Ambiguous := by
  simp [isAmbiguous, Ambiguous, ← hasBlankOrHash_iff]

theorem isMarked_iff {s : String} : isMarked s = true ↔ marker.toList <+: s.toList :=
  List.isPrefixOf_iff_prefix

end Reference

/-- One step into a value. -/
inductive Step where
  | key (name : String)
  | item (i : Nat)

namespace Step

/-- Entries come in the order of their keys, items in the order of their numbers. -/
inductive Before : Step → Step → Prop
  | key {k l : String} (h : k < l) : Before (.key k) (.key l)
  | item {i j : Nat} (h : i < j) : Before (.item i) (.item j)

instance : Std.Asymm Before where
  asymm _ _ h h' := by
    cases h with
    | key h =>
      cases h' with
      | key h' => exact String.lt_asymm h h'
    | item h =>
      cases h' with
      | item h' => exact Nat.lt_asymm h h'

/-- The written form of a step. -/
def text : Step → String
  | .key name => "." ++ name
  | .item i => "[" ++ toString i ++ "]"

/-- The written form of steps. -/
def textOf : List Step → String
  | [] => ""
  | step :: rest => step.text ++ textOf rest

end Step

namespace Value

/-- Steps into a value and what stands behind them. -/
inductive Reaches : Value → List Step → Value → Prop
  | here (v : Value) : Reaches v [] v
  | item {items : List Value} {i : Nat} {v leaf : Value} {steps : List Step}
      (hv : items[i]? = some v) (h : Reaches v steps leaf) :
      Reaches (.list items) (.item i :: steps) leaf
  | entry {entries : List (String × Value)} {key : String} {v leaf : Value} {steps : List Step}
      (hv : (key, v) ∈ entries) (h : Reaches v steps leaf) :
      Reaches (.map entries) (.key key :: steps) leaf

/-- What occurs in a value is reached by steps. -/
theorem occurs_iff_reaches {v leaf : Value} : Occurs leaf v ↔ ∃ steps, v.Reaches steps leaf := by
  constructor
  · intro h
    induction h with
    | itself => exact ⟨[], .here leaf⟩
    | item hv _ ih =>
      obtain ⟨i, hi⟩ := List.mem_iff_getElem?.mp hv
      obtain ⟨steps, hsteps⟩ := ih
      exact ⟨.item i :: steps, .item hi hsteps⟩
    | entry he _ ih =>
      obtain ⟨steps, hsteps⟩ := ih
      exact ⟨.key _ :: steps, .entry he hsteps⟩
  · rintro ⟨steps, h⟩
    induction h with
    | here => exact .itself
    | item hv _ ih => exact .item (List.mem_of_getElem? hv) ih
    | entry hv _ ih => exact .entry hv ih

/-- A value that, taken by itself, reads as nothing else: no text with the mark of a reference, and
no ambiguous reference. -/
def Plain : Value → Prop
  | .text s => ¬ Reference.marker.toList <+: s.toList
  | .reference r => ¬ r.Ambiguous
  | _ => True

/-- What is said of a text with the mark of a reference. -/
def textFault (s : String) : ValidationFault :=
  if (Reference.parse? s).isSome then .textReadsAsReference s else .malformedReference s

/-- What is wrong with a value by itself. -/
inductive Flaw : Value → ValidationFault → Prop
  | text {s : String} (h : Reference.marker.toList <+: s.toList) : Flaw (.text s) (textFault s)
  | reference {r : Reference} (h : r.Ambiguous) : Flaw (.reference r) (.ambiguousReference r)

theorem plain_iff {v : Value} : v.Plain ↔ ∀ fault, ¬ v.Flaw fault := by
  constructor
  · intro h fault hflaw
    cases hflaw with
    | text hmark => exact h hmark
    | reference hambiguous => exact h hambiguous
  · intro h
    cases v with
    | text s => exact fun hmark => h _ (.text hmark)
    | reference r => exact fun hambiguous => h _ (.reference hambiguous)
    | _ => trivial

end Value

/-! ## Declarations -/

/-- A rule for a declaration, at one of its attributes. -/
inductive Attribute where
  | kind
  | ref
  | name
  | scope
  | parent
  | value (steps : List Step)
  | distinct

namespace Attribute

/-- The order of the attributes. -/
def rank : Attribute → Nat
  | .kind => 0
  | .ref => 1
  | .name => 2
  | .scope => 3
  | .parent => 4
  | .value _ => 5
  | .distinct => 6

/-- Field values come in the order of the steps to them. -/
inductive Before : Attribute → Attribute → Prop
  | rank {a b : Attribute} (h : a.rank < b.rank) : Before a b
  | value {s t : List Step} (h : List.Lex Step.Before s t) : Before (.value s) (.value t)

instance : Std.Asymm Before where
  asymm _ _ h h' := by
    cases h with
    | rank h =>
      cases h' with
      | rank h' => exact Nat.lt_asymm h h'
      | value => exact Nat.lt_irrefl _ h
    | value h =>
      cases h' with
      | rank h' => exact Nat.lt_irrefl _ h'
      | value h' => exact Std.Asymm.asymm _ _ h h'

/-- The written form of an attribute. -/
def text : Attribute → String
  | .kind => ".type"
  | .ref => ".ref"
  | .name => ".name"
  | .scope => ".namespace"
  | .parent => ".parent"
  | .value steps => ".fields" ++ Step.textOf steps
  | .distinct => ".ref"

end Attribute

/-- What is said of a text that is no kind. -/
def kindFault (kind : String) : ValidationFault :=
  if isBlankText kind then .emptyKind else .malformedKind kind

/-- What is said of a text that is no reference. -/
def refFault (ref : String) : ValidationFault :=
  if isBlankText ref then .emptyRef else .malformedRef ref

namespace Declaration

/-- **A declaration is well formed by itself.** -/
structure WellFormed (d : Declaration) : Prop where
  kind : SpellsKind d.kind
  ref : SpellsRef d.ref
  /-- A name has a character to see. -/
  name : ∃ c ∈ d.name.toList, isBlank c = false
  scope : ∀ name, d.scope = some name → SpellsScope name
  parent : d.parent ≠ some ⟨d.kind, d.ref⟩
  /-- All that occurs in field values is plain, at any depth. -/
  values : ∀ e ∈ d.fields.entries, e.2.Everywhere Value.Plain

/-- What is wrong with a declaration behind others, and what is said of it. -/
inductive Flaw (earlier : List Declaration) (d : Declaration) : Attribute → ValidationFault → Prop
  | kind (h : ¬ SpellsKind d.kind) : Flaw earlier d .kind (kindFault d.kind)
  | ref (h : ¬ SpellsRef d.ref) : Flaw earlier d .ref (refFault d.ref)
  | name (h : ∀ c ∈ d.name.toList, isBlank c = true) :
      Flaw earlier d .name (.emptyName d.kind d.ref)
  | scope {name : String} (hname : d.scope = some name) (h : ¬ SpellsScope name) :
      Flaw earlier d .scope (.malformedNamespace name)
  | parent (h : d.parent = some ⟨d.kind, d.ref⟩) :
      Flaw earlier d .parent (.ownParent d.kind d.ref)
  | value {steps : List Step} {leaf : Value} {fault : ValidationFault}
      (hleaf : (Value.map d.fields.entries).Reaches steps leaf) (h : leaf.Flaw fault) :
      Flaw earlier d (.value steps) fault
  | distinct (hempty : d.ref ≠ "") (h : ∃ e ∈ earlier, e.kind = d.kind ∧ e.ref = d.ref) :
      Flaw earlier d .distinct (.duplicate d.kind d.ref)

variable {earlier : List Declaration} {d : Declaration}

theorem everywhere_plain_iff : (∀ e ∈ d.fields.entries, e.2.Everywhere Value.Plain)
    ↔ ∀ steps leaf, (Value.map d.fields.entries).Reaches steps leaf → leaf.Plain := by
  have hself : (Value.map d.fields.entries).Plain := trivial
  rw [← and_iff_right (b := ∀ e ∈ _, _) hself, ← Value.everywhere_map_iff, Value.Everywhere]
  simp only [Value.occurs_iff_reaches, forall_exists_index]
  exact forall_comm

/-- **A declaration without flaws is well formed, and none in front of it has its kind and its
reference.** -/
theorem not_flaw_iff : (∀ part fault, ¬ d.Flaw earlier part fault)
    ↔ d.WellFormed ∧ ¬ ∃ e ∈ earlier, e.kind = d.kind ∧ e.ref = d.ref := by
  constructor
  · intro h
    have hwell : d.WellFormed := {
      kind := by_contra fun hkind => h _ _ (.kind hkind)
      ref := by_contra fun href => h _ _ (.ref href)
      name := by
        by_contra hname
        exact h _ _ (.name (by simpa using hname))
      scope := fun name hname => by_contra fun hspelled => h _ _ (.scope hname hspelled)
      parent := fun hparent => h _ _ (.parent hparent)
      values := everywhere_plain_iff.mpr fun steps leaf hleaf =>
        Value.plain_iff.mpr fun _ hflaw => h _ _ (.value hleaf hflaw) }
    exact ⟨hwell, fun hearlier => h _ _ (.distinct hwell.ref.1 hearlier)⟩
  · rintro ⟨h, hearlier⟩ part fault hflaw
    cases hflaw with
    | kind hkind => exact hkind h.kind
    | ref href => exact href h.ref
    | name hblank =>
      obtain ⟨c, hc, hvisible⟩ := h.name
      exact Bool.false_ne_true (hvisible.symm.trans (hblank c hc))
    | scope hname hspelled => exact hspelled (h.scope _ hname)
    | parent hparent => exact h.parent hparent
    | value hleaf hvalue =>
      exact Value.plain_iff.mp (everywhere_plain_iff.mp h.values _ _ hleaf) _ hvalue
    | distinct _ hsame => exact hearlier hsame

end Declaration

/-! ## Documents -/

/-- A rule at one place of a document. -/
inductive Check where
  | defaultScope
  | defaultScopes (i : Nat)
  | resource (i : Nat) (part : Attribute)

namespace Check

/-- The order of the parts of a document. -/
def rank : Check → Nat
  | .defaultScope => 0
  | .defaultScopes _ => 1
  | .resource .. => 2

/-- **The order of a document**: the defaults, then declaration by declaration. -/
inductive Before : Check → Check → Prop
  | rank {a b : Check} (h : a.rank < b.rank) : Before a b
  | defaultScopes {i j : Nat} (h : i < j) : Before (.defaultScopes i) (.defaultScopes j)
  | resource {i j : Nat} {a b : Attribute} (h : i < j) : Before (.resource i a) (.resource j b)
  | part {i : Nat} {a b : Attribute} (h : a.Before b) :
      Before (.resource i a) (.resource i b)

instance : Std.Asymm Before where
  asymm _ _ h h' := by
    cases h with
    | rank h =>
      cases h' with
      | rank h' => exact Nat.lt_asymm h h'
      | defaultScopes | resource | part => exact Nat.lt_irrefl _ h
    | defaultScopes h =>
      cases h' with
      | rank h' => exact Nat.lt_irrefl _ h'
      | defaultScopes h' => exact Nat.lt_asymm h h'
    | resource h =>
      cases h' with
      | rank h' => exact Nat.lt_irrefl _ h'
      | resource h' => exact Nat.lt_asymm h h'
      | part => exact Nat.lt_irrefl _ h
    | part h =>
      cases h' with
      | rank h' => exact Nat.lt_irrefl _ h'
      | resource h' => exact Nat.lt_irrefl _ h'
      | part h' => exact Std.Asymm.asymm _ _ h h'

/-- The path to the place. -/
def path : Check → String
  | .defaultScope => "defaults.namespace"
  | .defaultScopes i => "defaults.namespaces[" ++ toString i ++ "]"
  | .resource i part => "resources[" ++ toString i ++ "]" ++ part.text

end Check

namespace DesiredState

variable {s : DesiredState}

/-- **A document breaks a rule at a place**, with the fault that says how. -/
inductive Breaks (s : DesiredState) : Check → ValidationFault → Prop
  | defaultScope {name : String} (hname : s.defaults.scope = some name) (h : ¬ SpellsScope name) :
      Breaks s .defaultScope (.malformedNamespace name)
  | defaultScopes {i : Nat} {name : String} (hname : s.defaults.scopes[i]? = some name)
      (h : ¬ SpellsScope name) : Breaks s (.defaultScopes i) (.malformedNamespace name)
  | resource {i : Nat} {d : Declaration} {part : Attribute} {fault : ValidationFault}
      (hd : s.resources[i]? = some d) (h : d.Flaw (s.resources.take i) part fault) :
      Breaks s (.resource i part) fault

/-- **A document is well formed.** -/
structure WellFormed (s : DesiredState) : Prop where
  /-- The default namespaces are spelled as namespaces. -/
  defaults : ∀ name, s.defaults.scope = some name ∨ name ∈ s.defaults.scopes → SpellsScope name
  declarations : ∀ d ∈ s.resources, d.WellFormed
  /-- Kinds and references together tell the declarations apart. -/
  distinct : (s.resources.map fun d => (d.kind, d.ref)).Nodup

/-- **A document is well formed if and only if it breaks no rule anywhere.** -/
theorem wellFormed_iff_not_breaks : s.WellFormed ↔ ∀ place fault, ¬ s.Breaks place fault := by
  have hdistinct : (s.resources.map fun d => (d.kind, d.ref)).Nodup
      ↔ ∀ i d, s.resources[i]? = some d
        → ¬ ∃ e ∈ s.resources.take i, e.kind = d.kind ∧ e.ref = d.ref := by
    simp only [nodup_map_iff_take, Prod.mk.injEq]
  constructor
  · intro h place fault hbreaks
    cases hbreaks with
    | defaultScope hname hspelled => exact hspelled (h.defaults _ (.inl hname))
    | defaultScopes hname hspelled =>
      exact hspelled (h.defaults _ (.inr (List.mem_of_getElem? hname)))
    | resource hd hflaw =>
      exact Declaration.not_flaw_iff.mpr ⟨h.declarations _ (List.mem_of_getElem? hd),
        hdistinct.mp h.distinct _ _ hd⟩ _ _ hflaw
  · intro h
    have hflaw {i : Nat} {d : Declaration} (hd : s.resources[i]? = some d) :=
      Declaration.not_flaw_iff.mp fun part fault hflaw => h _ _ (.resource hd hflaw)
    refine ⟨fun name hname => by_contra fun hspelled => ?_, fun d hd => ?_,
      hdistinct.mpr fun i d hd => (hflaw hd).2⟩
    · rcases hname with hname | hname
      · exact h _ _ (.defaultScope hname hspelled)
      · obtain ⟨i, hi⟩ := List.mem_iff_getElem?.mp hname
        exact h _ _ (.defaultScopes hi hspelled)
    · obtain ⟨i, hi⟩ := List.mem_iff_getElem?.mp hd
      exact (hflaw hi).1

end DesiredState

end Reconcile
