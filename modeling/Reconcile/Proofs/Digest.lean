import Mathlib.Data.List.Basic
import Mathlib.Data.List.Forall2
import Mathlib.Data.List.Flatten
import Reconcile.Plan.Digest
import Reconcile.Plan.Document
import Reconcile.Proofs.Lists
import Reconcile.Proofs.Pieces

/-!
# Proofs/Digest — what the digest of a plan tells of the plan

The digest sees a plan through its **view** (`Plan.view`): of the lists of resolved fields only the
items that have an identifier, no list hints, and each warning as one text.  Main facts:

* `Plan.digest_eq_of_view_eq` — plans with the same view have the same digest, whatever is written
  in what the view leaves out.
* `digest_eq_iff_view_eq` — where no part holds the separator, every change has a place in the
  order, and changes of one name are laid out alike, the digest also tells the views of two plans
  apart, as far as the digests of their texts do.
-/

namespace Reconcile

/-! ## The text of a digest -/

theorem length_byteText (b : UInt8) : (Sha256.byteText b).length = 2 := rfl

theorem not_mem_byteText (b : UInt8) : '\x1f' ∉ Sha256.byteText b := by
  have hdigit : ∀ n < 16, '\x1f' ≠ Nat.digitChar n := by decide
  have hb := b.toNat_lt
  rw [Sha256.byteText, List.mem_cons, List.mem_singleton, not_or]
  exact ⟨hdigit _ (by omega), hdigit _ (by omega)⟩

theorem toList_textDigest (s : String) : ∃ bytes : List UInt8, bytes.length = 32
    ∧ (textDigest s).toList = bytes.flatMap Sha256.byteText := by
  refine ⟨(Sha256.absorbAll Sha256.State.initial
    (Sha256.toWords (Sha256.pad s.toUTF8.toList))).words.flatMap
      fun w => Sha256.bigEndian 4 w.toNat, ?_, ?_⟩
  · simp [Sha256.State.words, Sha256.bigEndian]
  · rw [textDigest, Sha256.hexDigest, String.toList_ofList, List.flatMap_assoc]

/-- Every digest has sixty-four characters. -/
theorem length_textDigest (s : String) : (textDigest s).toList.length = 64 := by
  obtain ⟨bytes, hlength, htext⟩ := toList_textDigest s
  rw [htext, List.length_flatMap]
  simp [length_byteText, hlength]

/-- A digest does not hold the separator. -/
theorem not_mem_textDigest (s : String) : '\x1f' ∉ (textDigest s).toList := by
  obtain ⟨bytes, -, htext⟩ := toList_textDigest s
  rw [htext, List.mem_flatMap]
  rintro ⟨b, -, hb⟩
  exact not_mem_byteText b hb

/-! ## Cutting the text at its separators -/

/-- A part that does not hold the separator. -/
def Separable (part : String) : Prop := '\x1f' ∉ part.toList

instance (part : String) : Decidable (Separable part) := inferInstanceAs (Decidable (¬ _))

theorem separated_cons (part : String) (parts : List String) :
    separated (part :: parts) = part ++ partEnd ++ separated parts := by
  rw [separated, List.map_cons, String.join_cons, separated]

theorem separated_cons_append (part : String) (parts : List String) (x : String) :
    separated (part :: parts) ++ x = part ++ partEnd ++ (separated parts ++ x) := by
  rw [separated_cons, String.append_assoc]

/-- Texts are cut at their first separator in one way. -/
theorem Separable.append_inj {a b x y : String} (ha : Separable a) (hb : Separable b)
    (h : a ++ partEnd ++ x = b ++ partEnd ++ y) : a = b ∧ x = y := by
  have hchars : a.toList ++ '\x1f' :: x.toList = b.toList ++ '\x1f' :: y.toList := by
    simpa [partEnd] using congrArg String.toList h
  have hcut := congrArg (splitFirst '\x1f') hchars
  rw [splitFirst_append ha, splitFirst_append hb] at hcut
  obtain ⟨hab, hxy⟩ := Prod.mk.inj (Option.some.inj hcut)
  exact ⟨String.toList_inj.mp hab, String.toList_inj.mp hxy⟩

/-- As many parts in front of a text are found again, and so is the text. -/
theorem separated_append_inj {parts others : List String} {x y : String}
    (hparts : ∀ s ∈ parts, Separable s) (hothers : ∀ s ∈ others, Separable s)
    (hlength : parts.length = others.length)
    (h : separated parts ++ x = separated others ++ y) : parts = others ∧ x = y := by
  induction parts generalizing others with
  | nil =>
    obtain rfl := List.length_eq_zero_iff.mp hlength.symm
    exact ⟨rfl, by simpa [separated] using h⟩
  | cons a parts ih =>
    obtain ⟨b, others, rfl⟩ := List.exists_cons_of_length_eq_add_one hlength.symm
    rw [List.forall_mem_cons] at hparts hothers
    rw [separated_cons_append, separated_cons_append] at h
    obtain ⟨rfl, hrest⟩ := hparts.1.append_inj hothers.1 h
    obtain ⟨rfl, hxy⟩ := ih hparts.2 hothers.2 (Nat.succ.inj hlength) hrest
    exact ⟨rfl, hxy⟩

/-- The separators of a text count its parts. -/
theorem count_separated {parts : List String} (h : ∀ s ∈ parts, Separable s) :
    (separated parts).toList.count '\x1f' = parts.length := by
  induction parts with
  | nil => rfl
  | cons a parts ih =>
    rw [List.forall_mem_cons] at h
    have hend : partEnd.toList = ['\x1f'] := rfl
    rw [separated_cons, String.toList_append, String.toList_append, List.count_append,
      List.count_append, List.count_eq_zero_of_not_mem h.1, hend, ih h.2, List.length_cons]
    simp [Nat.add_comm]

/-- **The parts of a text without separators inside are found again.** -/
theorem separated_inj {parts others : List String} (hparts : ∀ s ∈ parts, Separable s)
    (hothers : ∀ s ∈ others, Separable s) (h : separated parts = separated others) :
    parts = others := by
  have hlength : parts.length = others.length := by
    rw [← count_separated hparts, ← count_separated hothers, h]
  exact (separated_append_inj (x := "") (y := "") hparts hothers hlength (by rw [h])).1

/-- Lists that are put together from pieces of the same lengths have the same pieces. -/
theorem map_eq_of_flatMap_eq {α β γ : Type} {f : α → List γ} {g : β → List γ} {l : List α}
    {m : List β} (hlength : (l.map fun a => (f a).length) = m.map fun b => (g b).length)
    (h : l.flatMap f = m.flatMap g) : l.map f = m.map g := by
  refine List.eq_iff_flatten_eq.mpr ⟨?_, ?_⟩
  · rwa [← List.flatMap_def, ← List.flatMap_def]
  · rwa [List.map_map, List.map_map]

/-- Where a function tells members of two lists apart whenever another one does, the values of the
one list say what those of the other say. -/
theorem map_eq_map_of_imp {α β γ : Type} {f : α → β} {g : α → γ} {l m : List α}
    (h : l.map f = m.map f) (hfg : ∀ a ∈ l, ∀ b ∈ m, f a = f b → g a = g b) :
    l.map g = m.map g := by
  induction l generalizing m with
  | nil =>
    obtain rfl := List.map_eq_nil_iff.mp h.symm
    rfl
  | cons a l ih =>
    obtain ⟨b, m, rfl, hb, hm⟩ := List.map_eq_cons_iff.mp h.symm
    rw [List.map_cons, List.map_cons, hfg a List.mem_cons_self b List.mem_cons_self hb.symm,
      ih hm.symm fun c hc d hd => hfg c (List.mem_cons_of_mem a hc) d (List.mem_cons_of_mem b hd)]

/-- Digests that stand behind each other are found again. -/
theorem join_textDigest_inj {l m : List String}
    (h : String.join (l.map textDigest) = String.join (m.map textDigest)) :
    l.map textDigest = m.map textDigest := by
  have hchars : l.flatMap (fun s => (textDigest s).toList)
      = m.flatMap fun s => (textDigest s).toList := by
    simpa [String.toList_join, List.flatMap_map] using congrArg String.toList h
  have hlengths : ∀ k : List String, (k.map fun s => (textDigest s).toList.length)
      = List.replicate k.length 64 := by
    intro k
    rw [List.eq_replicate_iff]
    refine ⟨by rw [List.length_map], fun n hn => ?_⟩
    obtain ⟨s, -, rfl⟩ := List.mem_map.mp hn
    exact length_textDigest s
  have hcount : l.length = m.length := by
    have hsum := congrArg List.length hchars
    rw [List.length_flatMap, List.length_flatMap, hlengths, hlengths, List.sum_replicate_nat,
      List.sum_replicate_nat] at hsum
    exact Nat.eq_of_mul_eq_mul_right (by decide) hsum
  have hlists := map_eq_of_flatMap_eq (by rw [hlengths, hlengths, hcount]) hchars
  have htexts := congrArg (List.map String.ofList) hlists
  simpa [List.map_map, Function.comp_def] using htexts

/-! ## What the digest sees -/

/-- What the digest sees of a resolved field: of a list only the items with an identifier. -/
structure FieldView where
  target : String
  id : String
  hints : Dict String
  items : List (String × String)
deriving DecidableEq

/-- What the digest sees of a change: each field as it is written, and an absent identifier as an
empty one. -/
@[ext]
structure ChangeView where
  id : String
  action : Action
  kind : String
  ref : String
  resourceId : String
  scope : String
  monikers : Dict String
  fields : List (String × String)
  references : List (String × FieldView)
  parent : Option (String × String × String)
  protection : Option Protection
  dependsOn : List String
deriving DecidableEq

/-- What the digest sees of a plan: each warning as one text, and neither the time nor the
generator. -/
structure PlanView where
  version : String
  mode : Mode
  changes : List ChangeView
  order : List String
  warnings : List String
deriving DecidableEq

/-- The view of a resolved field. -/
def ResolvedField.view (f : ResolvedField) : FieldView := ⟨f.target, f.id, f.hints, f.targets.zip f.ids⟩

/-- The view of a change. -/
def Change.view (c : Change) : ChangeView where
  id := c.id
  action := c.action
  kind := c.kind
  ref := c.ref
  resourceId := c.resourceId.getD ""
  scope := c.scope
  monikers := c.monikers
  fields := c.fields.entries.map fun e => (e.1, e.2.toJson.compact)
  references := c.references.entries.map fun e => (e.1, e.2.view)
  parent := c.parent.map fun p => (p.kind, p.ref, p.id.getD "")
  protection := c.protection
  dependsOn := c.dependsOn

/-- The view of a plan. -/
def Plan.view (p : Plan) : PlanView where
  version := p.metadata.version
  mode := p.metadata.mode
  changes := p.changes.map Change.view
  order := p.order
  warnings := p.warnings.map fun w => w.changeId ++ w.message

/-- The parts of a resolved field, read off its view. -/
def FieldView.parts (f : FieldView) : List String :=
  [f.target, f.id] ++ f.hints.textParts ++ f.items.flatMap fun e => [e.1, e.2]

/-- The parts of a change, read off its view. -/
def ChangeView.parts (v : ChangeView) : List String :=
  [v.id, v.action.name, v.kind, v.ref, v.resourceId, v.scope]
    ++ v.monikers.textParts
    ++ (v.fields.flatMap fun e => [e.1, e.2])
    ++ (v.references.flatMap fun e => e.1 :: e.2.parts)
    ++ v.parent.elim [] (fun p => [p.1, p.2.1, p.2.2])
    ++ protectionParts v.protection
    ++ v.dependsOn

theorem Change.parts_view (c : Change) : c.view.parts = c.digestParts := by
  rw [ChangeView.parts, Change.digestParts]
  simp only [Change.view, List.flatMap_map]
  cases c.parent <;> rfl

/-- **The digest sees the view only**, whatever the digest of a text is. -/
theorem Plan.digestText_eq_of_view_eq {p q : Plan} (h : p.view = q.view)
    (digest : String → String) : p.digestText digest = q.digestText digest := by
  have htexts : ∀ r : Plan, (r.changes.map fun c => digest c.digestText)
      = r.view.changes.map fun v => digest (separated v.parts) := by
    intro r
    simp [Plan.view, Change.parts_view, Change.digestText]
  have hparts : ∀ r : Plan, r.digestText digest
      = separated [r.view.version, r.view.mode.name]
        ++ String.join (r.view.changes.map fun v => digest (separated v.parts)) ++ partEnd
        ++ separated r.view.order ++ separated r.view.warnings := by
    intro r
    rw [Plan.digestText, htexts]
    rfl
  rw [hparts, hparts, h]

/-- Plans with the same view have the same digest. -/
theorem Plan.digest_eq_of_view_eq {p q : Plan} (h : p.view = q.view) : p.digest = q.digest :=
  congrArg textDigest (digestText_eq_of_view_eq h textDigest)

/-! ## Reading the view off the digested text -/

/-- How many parts the sections of a digested change have. -/
structure Layout where
  monikers : Nat
  fields : Nat
  references : List (Nat × Nat)
  hasParent : Bool
deriving DecidableEq

/-- The layout of a change. -/
def ChangeView.layout (v : ChangeView) : Layout where
  monikers := v.monikers.size
  fields := v.fields.length
  references := v.references.map fun e => (e.2.hints.size, e.2.items.length)
  hasParent := v.parent.isSome

theorem length_pairs (l : List (String × String)) :
    (l.flatMap fun e => [e.1, e.2]).length = 2 * l.length := by
  rw [List.length_flatMap]
  simp [Nat.mul_comm]

theorem eq_of_flatMap_pairs {l m : List (String × String)}
    (h : (l.flatMap fun e => [e.1, e.2]) = m.flatMap fun e => [e.1, e.2]) : l = m := by
  have hlength : l.length = m.length := by
    have h2 := congrArg List.length h
    rw [length_pairs, length_pairs] at h2
    omega
  have hpairs := map_eq_of_flatMap_eq (by simp [hlength]) h
  refine List.map_injective_iff.mpr (fun a b hab => ?_) hpairs
  obtain ⟨hfst, htail⟩ := List.cons.inj hab
  exact Prod.ext hfst (List.cons.inj htail).1

theorem Dict.length_textParts (d : Dict String) : d.textParts.length = 2 * d.size :=
  length_pairs d.entries

theorem Dict.textParts_inj {d e : Dict String} (h : d.textParts = e.textParts) : d = e :=
  ext_entries (eq_of_flatMap_pairs h)

/-- The marks of the protection differ in their first character, and all are of one length. -/
theorem protectionParts_append_inj {a b : Option Protection} {x y : List String}
    (h : protectionParts a ++ x = protectionParts b ++ y) : a = b ∧ x = y := by
  rcases a with _ | ((_ | _) | ⟨_ | _, _ | _⟩) <;>
    rcases b with _ | ((_ | _) | ⟨_ | _, _ | _⟩) <;>
    simp_all [protectionParts, statusMark]

theorem FieldView.length_parts (f : FieldView) :
    f.parts.length = 2 + 2 * f.hints.size + 2 * f.items.length := by
  rw [parts, List.length_append, List.length_append, Dict.length_textParts, length_pairs]
  rfl

theorem FieldView.parts_inj {f g : FieldView} (hhints : f.hints.size = g.hints.size)
    (h : f.parts = g.parts) : f = g := by
  rw [parts, parts] at h
  obtain ⟨hfront, hitems⟩ := List.append_inj h (by simp [Dict.length_textParts, hhints])
  obtain ⟨hids, htexts⟩ := List.append_inj hfront rfl
  obtain ⟨htarget, htail⟩ := List.cons.inj hids
  obtain rfl : f = ⟨g.target, g.id, g.hints, g.items⟩ := by
    rw [← htarget, ← (List.cons.inj htail).1, ← Dict.textParts_inj htexts,
      ← eq_of_flatMap_pairs hitems]
  rfl

/-- Of a reference, the counts of its hints and items tell how many parts it has. -/
theorem lengths_references {l m : List (String × FieldView)}
    (hcounts : (l.map fun e => (e.2.hints.size, e.2.items.length))
      = m.map fun e => (e.2.hints.size, e.2.items.length)) :
    (l.map fun e => (e.1 :: e.2.parts).length) = m.map fun e => (e.1 :: e.2.parts).length := by
  have hlength : ∀ k : List (String × FieldView), (k.map fun e => (e.1 :: e.2.parts).length)
      = (k.map fun e => (e.2.hints.size, e.2.items.length)).map
          fun n => 2 + 2 * n.1 + 2 * n.2 + 1 := by
    intro k
    simp [List.map_map, FieldView.length_parts]
  rw [hlength, hlength, hcounts]

theorem references_inj {l m : List (String × FieldView)}
    (hcounts : (l.map fun e => (e.2.hints.size, e.2.items.length))
      = m.map fun e => (e.2.hints.size, e.2.items.length))
    (h : (l.flatMap fun e => e.1 :: e.2.parts) = m.flatMap fun e => e.1 :: e.2.parts) : l = m := by
  have hparts := map_eq_of_flatMap_eq (lengths_references hcounts) h
  have hboth := congrArg₂ List.zip hparts hcounts
  rw [List.zip_map', List.zip_map'] at hboth
  refine List.map_injective_iff.mpr (fun a b hab => ?_) hboth
  obtain ⟨hab, hsizes⟩ := Prod.mk.inj hab
  obtain ⟨hname, hfield⟩ := List.cons.inj hab
  exact Prod.ext hname (FieldView.parts_inj (Prod.mk.inj hsizes).1 hfield)

theorem parent_append_inj {a b : Option (String × String × String)} {x y : List String}
    (hthere : a.isSome = b.isSome)
    (h : a.elim [] (fun p => [p.1, p.2.1, p.2.2]) ++ x
      = b.elim [] (fun p => [p.1, p.2.1, p.2.2]) ++ y) : a = b ∧ x = y := by
  cases a <;> cases b <;> simp_all [Prod.ext_iff]

theorem Action.name_injective : Function.Injective name := fun a b h => by
  rw [← Option.some_inj, ← ofName?_name a, ← ofName?_name b, h]

theorem Mode.name_injective : Function.Injective name := fun a b h => by
  rw [← Option.some_inj, ← ofName?_name a, ← ofName?_name b, h]

/-- **A view is found again from its parts and its layout.** -/
theorem ChangeView.parts_inj {v w : ChangeView} (hlayout : v.layout = w.layout)
    (h : v.parts = w.parts) : v = w := by
  obtain ⟨hmonikers, hfields, hcounts, hthere⟩ := Layout.mk.inj hlayout
  simp only [parts, List.append_assoc] at h
  obtain ⟨hhead, h⟩ := List.append_inj h rfl
  obtain ⟨hmoniker, h⟩ := List.append_inj h
    (by rw [Dict.length_textParts, Dict.length_textParts, hmonikers])
  obtain ⟨hfield, h⟩ := List.append_inj h (by rw [length_pairs, length_pairs, hfields])
  obtain ⟨hreference, h⟩ := List.append_inj h
    (by rw [List.length_flatMap, List.length_flatMap, lengths_references hcounts])
  obtain ⟨hparent, h⟩ := parent_append_inj hthere h
  obtain ⟨hprotection, hdependsOn⟩ := protectionParts_append_inj h
  simp only [List.cons.injEq, and_true] at hhead
  obtain ⟨hid, haction, hkind, href, hresource, hscope⟩ := hhead
  exact ChangeView.ext hid (Action.name_injective haction) hkind href hresource hscope
    (Dict.textParts_inj hmoniker) (eq_of_flatMap_pairs hfield)
    (references_inj hcounts hreference) hparent hprotection hdependsOn

/-- Without the layout a moniker is taken for a field. -/
example (v : ChangeView) :
    { v with monikers := .singleton "size" "1", fields := [] }.parts
      = { v with monikers := ∅, fields := [("size", "1")] }.parts := rfl

/-! ## What equal digests say -/

/-- No part of the digested texts holds the separator, and every change has one place in the
order. -/
structure Plan.Separable (p : Plan) : Prop where
  version : Reconcile.Separable p.metadata.version
  changes : ∀ c ∈ p.changes, ∀ s ∈ c.digestParts, Reconcile.Separable s
  order : ∀ id ∈ p.order, Reconcile.Separable id
  warnings : ∀ w ∈ p.warnings, Reconcile.Separable (w.changeId ++ w.message)
  ordered : p.order.length = p.changes.length

/-- No two different texts of two plans that are compared have the same digest. -/
structure Plan.Unclashing (p q : Plan) : Prop where
  plans : p.digest = q.digest → p.digestText textDigest = q.digestText textDigest
  changes : ∀ c ∈ p.changes, ∀ d ∈ q.changes, c.digest = d.digest → c.digestText = d.digestText

theorem Mode.separable_name (m : Mode) : Separable m.name := by
  cases m <;> decide

theorem separable_join_textDigest (l : List String) :
    Separable (String.join (l.map textDigest)) := by
  intro h
  rw [String.toList_join, List.mem_flatMap] at h
  obtain ⟨t, ht, hmem⟩ := h
  obtain ⟨s, -, rfl⟩ := List.mem_map.mp ht
  exact not_mem_textDigest s hmem

variable {p q : Plan}

/-- **The digested texts of plans are cut into what they are made of.** -/
theorem Plan.digestText_inj (hp : p.Separable) (hq : q.Separable)
    (h : p.digestText textDigest = q.digestText textDigest) :
    p.metadata.version = q.metadata.version ∧ p.metadata.mode = q.metadata.mode
      ∧ p.changes.map Change.digest = q.changes.map Change.digest ∧ p.order = q.order
      ∧ (p.warnings.map fun w => w.changeId ++ w.message)
        = q.warnings.map fun w => w.changeId ++ w.message := by
  have hhead : ∀ r : Plan, r.Separable →
      ∀ s ∈ [r.metadata.version, r.metadata.mode.name], Reconcile.Separable s := by
    intro r hr s hs
    rcases List.mem_pair.mp hs with rfl | rfl
    · exact hr.version
    · exact r.metadata.mode.separable_name
  have hshape : ∀ r : Plan, r.digestText textDigest
      = separated [r.metadata.version, r.metadata.mode.name]
        ++ (String.join ((r.changes.map Change.digestText).map textDigest) ++ partEnd
          ++ (separated r.order ++ separated (r.warnings.map fun w => w.changeId ++ w.message))) := by
    intro r
    rw [digestText, List.map_map]
    simp only [String.append_assoc]
    rfl
  rw [hshape, hshape] at h
  obtain ⟨hfront, h⟩ := separated_append_inj (hhead p hp) (hhead q hq) rfl h
  obtain ⟨hdigests, h⟩ :=
    (separable_join_textDigest _).append_inj (separable_join_textDigest _) h
  have hchanges := join_textDigest_inj hdigests
  rw [List.map_map, List.map_map] at hchanges
  have hlength : p.order.length = q.order.length := by
    rw [hp.ordered, hq.ordered]
    simpa using congrArg List.length hchanges
  obtain ⟨horder, h⟩ := separated_append_inj hp.order hq.order hlength h
  have hwarnings := separated_inj (List.forall_mem_map.mpr hp.warnings)
    (List.forall_mem_map.mpr hq.warnings) h
  obtain ⟨hversion, htail⟩ := List.cons.inj hfront
  exact ⟨hversion, Mode.name_injective (List.cons.inj htail).1, hchanges, horder, hwarnings⟩

/-- Changes with the same digest look alike. -/
theorem Change.view_eq_of_digest_eq {c d : Change} (hc : ∀ s ∈ c.digestParts, Separable s)
    (hd : ∀ s ∈ d.digestParts, Separable s)
    (hlayout : c.id = d.id → c.view.layout = d.view.layout)
    (hclash : c.digest = d.digest → c.digestText = d.digestText) (h : c.digest = d.digest) :
    c.view = d.view := by
  have hparts : c.digestParts = d.digestParts := separated_inj hc hd (hclash h)
  have hid : c.id = d.id := Option.some.inj (congrArg List.head? hparts)
  rw [← parts_view, ← parts_view] at hparts
  exact ChangeView.parts_inj (hlayout hid) hparts

/-- **What a digest tells.**  Two plans have the same digest if and only if the digest sees the same
of both, where no part holds the separator, changes of one name have one layout, and no two texts
clash. -/
theorem digest_eq_iff_view_eq (hp : p.Separable) (hq : q.Separable)
    (hlayout : ∀ c ∈ p.changes, ∀ d ∈ q.changes, c.id = d.id → c.view.layout = d.view.layout)
    (hclash : p.Unclashing q) : p.digest = q.digest ↔ p.view = q.view := by
  refine ⟨fun h => ?_, Plan.digest_eq_of_view_eq⟩
  obtain ⟨hversion, hmode, hchanges, horder, hwarnings⟩ :=
    Plan.digestText_inj hp hq (hclash.plans h)
  have hviews : p.changes.map Change.view = q.changes.map Change.view :=
    map_eq_map_of_imp hchanges fun c hc d hd => Change.view_eq_of_digest_eq (hp.changes c hc)
      (hq.changes d hd) (hlayout c hc d hd) (hclash.changes c hc d hd)
  rw [Plan.view, Plan.view, hversion, hmode, hviews, horder, hwarnings]

/-- A plan for a route whose plugins are named in a list, with what they are looked up by. -/
def pluginsPlan (generator : String) (hintLists : Dict (List String)) : Plan where
  metadata := ⟨"1.0", ⟨0, 0⟩, generator, .apply⟩
  changes := [{
    id := "1:u:route:orders", kind := "route", ref := "orders", resourceId := some "r1",
    action := .update, scope := "default",
    fields := .singleton "plugins" (.list [.reference ⟨"auth", "id"⟩, .reference ⟨"quota", "id"⟩]),
    references := .singleton "plugins"
      { targets := ["auth", "quota"], ids := ["p1", "p2"], hintLists, isList := true },
    parent := some ⟨"api", "shop", some "a1"⟩ }]
  order := ["1:u:route:orders"]

/-- The plan as it comes out at night. -/
def nightlyPluginsPlan : Plan := pluginsPlan "nightly" ∅

/-- The plan as somebody wrote it down, with names to look the plugins up by. -/
def copiedPluginsPlan : Plan := pluginsPlan "by hand" (.singleton "name" ["Auth", "Quota"])

theorem view_copiedPluginsPlan : nightlyPluginsPlan.view = copiedPluginsPlan.view := by
  decide +kernel

theorem digest_eq_iff_view_eq_copiedPluginsPlan :
    nightlyPluginsPlan.Separable ∧ copiedPluginsPlan.Separable
      ∧ nightlyPluginsPlan.Unclashing copiedPluginsPlan
      ∧ (nightlyPluginsPlan.digest = copiedPluginsPlan.digest
        ↔ nightlyPluginsPlan.view = copiedPluginsPlan.view) := by
  have hnightly : nightlyPluginsPlan.Separable :=
    ⟨by decide, by decide +kernel, by decide, by decide, rfl⟩
  have hcopied : copiedPluginsPlan.Separable :=
    ⟨by decide, by decide +kernel, by decide, by decide, rfl⟩
  have htexts : ∀ c ∈ nightlyPluginsPlan.changes, ∀ d ∈ copiedPluginsPlan.changes,
      c.digestText = d.digestText := by
    decide +kernel
  have hclash : nightlyPluginsPlan.Unclashing copiedPluginsPlan :=
    ⟨fun _ => Plan.digestText_eq_of_view_eq view_copiedPluginsPlan textDigest,
      fun c hc d hd _ => htexts c hc d hd⟩
  exact ⟨hnightly, hcopied, hclash,
    digest_eq_iff_view_eq hnightly hcopied (by decide +kernel) hclash⟩

/-- **The digest does not cover everything that a plan holds.**  Two plans that differ in what the
items of a list are looked up by are digested as one text, whatever digest is taken of it. -/
theorem exists_digest_eq_of_changes_ne :
    ∃ p q : Plan, (∀ digest, p.digestText digest = q.digestText digest) ∧ p.digest = q.digest
      ∧ (p.changes.map fun c => c.toJson.compact) ≠ q.changes.map fun c => c.toJson.compact :=
  ⟨nightlyPluginsPlan, copiedPluginsPlan, Plan.digestText_eq_of_view_eq view_copiedPluginsPlan,
    Plan.digest_eq_of_view_eq view_copiedPluginsPlan, by decide +kernel⟩

end Reconcile
