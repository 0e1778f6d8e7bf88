import Reconcile.Proofs.Shuffles

/-!
# Proofs/DeleteLinks — which deletes wait for which

The delete of an auth strategy waits for the deletes of apis and publications that **free** it
(`Change.Frees`): those in its namespace, and, where a namespace is missing, publications that list
it and apis that have none either.  Linking writes these down behind what the delete lists already,
in the order of the batch, and changes nothing else (`Change.LinkedIn`).  Main fact:
`linksDeletes_linkDeletes` — it does so for every batch, and finds nothing more to do the second
time.
-/

namespace Reconcile

/-! ## The rule -/

namespace Change

variable {c d s : Change}

/-- The change deletes an auth strategy. -/
def DeletesStrategy (c : Change) : Prop :=
  c.action = .delete ∧ c.kind = "application_auth_strategy"

/-- **The rule by which deleting one resource frees a strategy that is deleted, too.**  Namespaces
decide, where both are known; otherwise a publication has to list the strategy, and an api has to
have no namespace as little as the strategy. -/
inductive Frees (d s : Change) : Prop
  | sameScope (hs : s.scope ≠ "") (hd : d.scope ≠ "") (hscope : s.scope = d.scope)
  | listing {id : String} {items : List Value} (hmissing : s.scope = "" ∨ d.scope = "")
      (hkind : d.kind = "api_publication") (hid : s.resourceId = some id)
      (hitems : d.fields.get? strategyListField = some (.list items)) (hmem : .text id ∈ items)
  | unscoped (hkind : d.kind = "api") (hs : s.scope = "") (hd : d.scope = "")

/-- A delete of an api or of a publication, which frees the strategy. -/
structure SelectedFor (d s : Change) : Prop where
  delete : d.action = .delete
  kind : d.kind = "api" ∨ d.kind = "api_publication"
  frees : d.Frees s

end Change

variable {c d s : Change}

theorem listsStrategy_iff {id : String} : listsStrategy d id = true
    ↔ ∃ items, d.fields.get? strategyListField = some (.list items) ∧ .text id ∈ items := by
  have htext : ∀ v : Value, v.text? = some id ↔ v = .text id := fun v => by
    cases v <;> simp [Value.text?]
  unfold listsStrategy
  rcases d.fields.get? strategyListField with _ | v
  · simp
  · cases v with
    | list items => simp [Value.items?, htext]
    | _ => simp [Value.items?]

/-- **The test for waiting is the rule**, among apis and publications. -/
theorem waitsForDelete_iff (hkind : d.kind = "api" ∨ d.kind = "api_publication") :
    waitsForDelete s d = true ↔ d.Frees s := by
  unfold waitsForDelete
  by_cases hknown : s.scope ≠ "" ∧ d.scope ≠ ""
  · rw [if_pos (by simpa using hknown), beq_iff_eq]
    refine ⟨.sameScope hknown.1 hknown.2, ?_⟩
    rintro (⟨-, -, hscope⟩ | ⟨hmissing, -, -, -, -⟩ | ⟨-, hs, -⟩)
    · exact hscope
    · exact absurd hmissing (not_or.mpr hknown)
    · exact absurd hs hknown.1
  · have hmissing : s.scope = "" ∨ d.scope = "" := by
      by_contra hnone
      exact hknown (not_or.mp hnone)
    rw [if_neg (by simpa using hknown)]
    rcases hkind with hkind | hkind
    · rw [if_neg (by simp [hkind]), beq_iff_eq]
      constructor
      · intro hscope
        exact .unscoped hkind (hmissing.elim id hscope.trans) (hmissing.elim hscope.symm.trans id)
      · rintro (⟨-, -, hscope⟩ | ⟨-, hpublication, -, -, -⟩ | ⟨-, hs, hd⟩)
        · exact hscope
        · exact absurd (hkind.symm.trans hpublication) (by simp)
        · exact hs.trans hd.symm
    · rw [if_pos (by simp [hkind])]
      constructor
      · intro h
        rcases hid : s.resourceId with _ | id <;> simp only [hid] at h
        · exact absurd h (by simp)
        · obtain ⟨items, hitems, hmem⟩ := listsStrategy_iff.mp h
          exact .listing hmissing hkind hid hitems hmem
      · rintro (⟨hs, hd, -⟩ | ⟨-, -, hid, hitems, hmem⟩ | ⟨happi, -, -⟩)
        · exact absurd ⟨hs, hd⟩ hknown
        · rw [hid]
          exact listsStrategy_iff.mpr ⟨_, hitems, hmem⟩
        · exact absurd (hkind.symm.trans happi) (by simp)

instance (d s : Change) : Decidable (d.SelectedFor s) :=
  decidable_of_iff (d.action = .delete ∧ (d.kind = "api" ∨ d.kind = "api_publication")
      ∧ waitsForDelete s d = true)
    ⟨fun ⟨hdelete, hkind, hwaits⟩ => ⟨hdelete, hkind, (waitsForDelete_iff hkind).mp hwaits⟩,
      fun h => ⟨h.delete, h.kind, (waitsForDelete_iff h.kind).mpr h.frees⟩⟩

theorem lookup_deleteAfter {kind : String} {kinds : List String} :
    deleteAfter.lookup kind = some kinds
      ↔ kind = "application_auth_strategy" ∧ kinds = ["api", "api_publication"] := by
  by_cases hkind : kind = "application_auth_strategy"
  · simp [deleteAfter, hkind, eq_comm]
  · have hother : (kind == "application_auth_strategy") = false := beq_false_of_ne hkind
    simp [deleteAfter, List.lookup_cons, hother, hkind]

/-- **Links go from deletes of strategies to the deletes that are selected for them.** -/
theorem Change.linksTo_iff : c.LinksTo d ↔ c.DeletesStrategy ∧ d.SelectedFor c := by
  simp only [LinksTo, lookup_deleteAfter, DeletesStrategy]
  constructor
  · rintro ⟨hdelete, hd, _, ⟨hstrategy, rfl⟩, hkind, hwaits⟩
    have hkind : d.kind = "api" ∨ d.kind = "api_publication" := by simpa using hkind
    exact ⟨⟨hdelete, hstrategy⟩, hd, hkind, (waitsForDelete_iff hkind).mp hwaits⟩
  · rintro ⟨⟨hdelete, hstrategy⟩, hd, hkind, hfrees⟩
    exact ⟨hdelete, hd, _, ⟨hstrategy, rfl⟩, by simpa using hkind,
      (waitsForDelete_iff hkind).mpr hfrees⟩

/-- The links of the delete of a strategy, in the order of the batch. -/
theorem deleteLinks_eq {changes : List Change} (h : c.DeletesStrategy) :
    deleteLinks changes c = (changes.filter fun d => d.SelectedFor c).map (·.id) := by
  have hlookup : deleteAfter.lookup c.kind = some ["api", "api_publication"] :=
    lookup_deleteAfter.mpr ⟨h.2, rfl⟩
  rw [deleteLinks, if_neg (by simp [h.1]), hlookup]
  refine congrArg (List.map _) (List.filter_congr fun d _ => ?_)
  rw [Bool.eq_iff_iff, decide_eq_true_eq]
  have hlinks : c.LinksTo d ↔ d.SelectedFor c := Change.linksTo_iff.trans (and_iff_right h)
  rw [← hlinks, Change.LinksTo, hlookup]
  simp [h.1, and_assoc]

/-- No other change has links. -/
theorem deleteLinks_eq_nil {changes : List Change} (h : ¬c.DeletesStrategy) :
    deleteLinks changes c = [] := by
  refine List.eq_nil_iff_forall_not_mem.mpr fun id hid => ?_
  obtain ⟨d, -, hlinks, -⟩ := mem_deleteLinks.mp hid
  exact h (Change.linksTo_iff.mp hlinks).1

/-! ## What linking does -/

namespace Change

/-- **What linking adds to the delete of a strategy**: the identifiers of the deletes that are
selected for it, in the order of the batch, each at its first place; without its own and without
those that it lists already. -/
def addedLinks (changes : List Change) (c : Change) : List String :=
  (((changes.filter fun d => d.SelectedFor c).map (·.id)).filter fun id =>
    id ≠ c.id ∧ id ∉ c.dependsOn).eraseDups

/-- **What linking makes of a change of a batch.** -/
structure LinkedIn (changes : List Change) (c c' : Change) : Prop where
  spared : ¬c.DeletesStrategy → c' = c
  appended : c.DeletesStrategy → c' = { c with dependsOn := c.dependsOn ++ c.addedLinks changes }
  once : (c.addedLinks changes).Nodup
  awaits : c.DeletesStrategy → ∀ id, id ∈ c'.dependsOn
    ↔ id ∈ c.dependsOn ∨ id ≠ c.id ∧ ∃ d ∈ changes, d.SelectedFor c ∧ d.id = id

/-- **Dependencies that are added**: what is new, each once, in the order in which it comes. -/
theorem addDependencies_eq (c : Change) (ds : List String) : ds.foldl addDependency c
    = { c with
        dependsOn := c.dependsOn
          ++ (ds.filter fun id => id ≠ c.id ∧ id ∉ c.dependsOn).eraseDups } := by
  induction ds generalizing c with
  | nil => simp
  | cons d rest ih =>
    rw [List.foldl_cons]
    by_cases hlisted : d = c.id ∨ d ∈ c.dependsOn
    · have hdropped : ¬(d ≠ c.id ∧ d ∉ c.dependsOn) := fun ⟨hself, hnew⟩ =>
        hlisted.elim hself hnew
      rw [addDependency_of_listed hlisted, ih, List.filter_cons_of_neg (by simpa using hdropped)]
    · have hnew : d ≠ c.id ∧ d ∉ c.dependsOn := not_or.mp hlisted
      rw [addDependency_of_new hlisted, ih, List.filter_cons_of_pos (by simpa using hnew),
        List.eraseDups_cons, List.filter_filter]
      -- what is behind the new one must differ from it, since it is listed by then
      have hrest : (rest.filter fun id => id ≠ c.id ∧ id ∉ c.dependsOn ++ [d])
          = rest.filter fun id => !id == d && decide (id ≠ c.id ∧ id ∉ c.dependsOn) := by
        refine List.filter_congr fun id _ => ?_
        rw [Bool.eq_iff_iff]
        simp only [decide_eq_true_eq, List.mem_append, List.mem_singleton, Bool.and_eq_true,
          Bool.not_eq_true', beq_eq_false_iff_ne]
        tauto
      simp only [hrest, List.append_assoc, List.singleton_append]

end Change

/-- **Linking a change of a batch.** -/
theorem linkedIn_addDependencies (changes : List Change) (c : Change) :
    c.LinkedIn changes ((deleteLinks changes c).foldl Change.addDependency c) where
  spared h := by rw [deleteLinks_eq_nil h, List.foldl_nil]
  appended h := by rw [deleteLinks_eq h, Change.addDependencies_eq, Change.addedLinks]
  once := by
    -- the dependencies that are added to any change are distinct
    obtain ⟨added, heq, hnodup, -⟩ := Change.exists_addDependencies_eq c
      ((changes.filter fun d => d.SelectedFor c).map (·.id))
    rw [Change.addDependencies_eq, ← Change.addedLinks] at heq
    rwa [List.append_cancel_left (congrArg Change.dependsOn heq)]
  awaits h id := by
    rw [Change.mem_dependsOn_addDependencies, mem_deleteLinks, and_comm (b := id ≠ c.id)]
    simp only [Change.linksTo_iff, h, true_and]

/-! ## Linking again -/

/-- What a change does decides what it is linked to. -/
theorem Change.linksTo_congr {c' d' : Change} (hc : c'.core = c.core) (hd : d'.core = d.core) :
    c'.LinksTo d' ↔ c.LinksTo d := by
  change c'.core.LinksTo d'.core ↔ c.core.LinksTo d.core
  rw [hc, hd]

/-- A linked batch has no links but those of the batch. -/
theorem mem_deleteLinks_linkDeletes {changes : List Change} {c' : Change} (hc : c'.core = c.core)
    {id : String} (hid : id ∈ deleteLinks (linkDeletes changes) c') : id ∈ deleteLinks changes c := by
  obtain ⟨d', hd', hlinks, rfl⟩ := mem_deleteLinks.mp hid
  obtain ⟨d, hd, rfl⟩ := List.mem_map.mp hd'
  have hextends := d.extends_addDependencies (deleteLinks changes d)
  exact mem_deleteLinks.mpr ⟨d, hd, (Change.linksTo_congr hc hextends.core).mp hlinks,
    hextends.id.symm⟩

/-- **Linking twice is linking once.** -/
theorem linkDeletes_linkDeletes (changes : List Change) :
    linkDeletes (linkDeletes changes) = linkDeletes changes := by
  refine (List.map_congr_left fun c' hc' => ?_).trans (List.map_id _)
  obtain ⟨c, -, rfl⟩ := List.mem_map.mp hc'
  have hextends := c.extends_addDependencies (deleteLinks changes c)
  refine Change.addDependencies_of_listed fun id hid => ?_
  have hlink := mem_deleteLinks_linkDeletes hextends.core hid
  rw [hextends.id, Change.mem_dependsOn_addDependencies]
  by_cases hself : id = c.id
  · exact .inl hself
  · exact .inr (.inr ⟨hlink, hself⟩)

/-- **What linking makes of a batch**: each change is linked where it stands, and nothing is left to
link. -/
structure LinksDeletes (changes linked : List Change) : Prop where
  places : List.Forall₂ (Change.LinkedIn changes) changes linked
  settled : linkDeletes linked = linked

/-- **Linking does what the rule says, to every batch.** -/
theorem linksDeletes_linkDeletes (changes : List Change) :
    LinksDeletes changes (linkDeletes changes) where
  places := by
    rw [linkDeletes, List.forall₂_map_right_iff, List.forall₂_same]
    exact fun c _ => linkedIn_addDependencies changes c
  settled := linkDeletes_linkDeletes changes

-- a strategy waits for what is deleted in its namespace, and not for what is deleted elsewhere
example : (linkDeletes [
    { id := "1:d:application_auth_strategy:as", kind := "application_auth_strategy", ref := "as",
      action := .delete, scope := "payments" },
    { id := "2:d:api:checkout", kind := "api", ref := "checkout", action := .delete,
      scope := "payments" },
    { id := "3:d:api_publication:pub", kind := "api_publication", ref := "pub", action := .delete,
      scope := "payments" },
    { id := "4:d:api:other", kind := "api", ref := "other", action := .delete,
      scope := "team-b" }]).map (·.dependsOn)
    = [["2:d:api:checkout", "3:d:api_publication:pub"], [], [], []] := by decide

end Reconcile
