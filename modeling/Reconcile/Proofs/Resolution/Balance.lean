import Reconcile.Proofs.Resolution.Moments
import Reconcile.Proofs.Resolution.Origins

/-!
# Proofs/Resolution/Balance — resolution loses no reference and counts none twice

Each reference of a batch comes to one end: it is resolved, left unknown with a warning, or reported
(`Tally.Balances`).  Items that are identifiers are none, and a parent that the batch creates is
waited for without being counted.  What a field, a parent and a change take balances, and balances
add up: `balances_resolveReferences`.
-/

namespace Reconcile

/-! ## What there is to resolve -/

/-- The fields that hold references and are not lists. -/
def scalarReferences (entries : List (String × Value)) : Nat :=
  entries.countP fun e => holdsReference e.1 e.2 && e.2.items?.isNone

/-- The items, of the lists that hold references, that are not identifiers. -/
def listedReferences (entries : List (String × Value)) : Nat :=
  ((entries.filter fun e => holdsReference e.1 e.2).map fun e =>
    (e.2.items?.getD []).countP fun item => !item.isRemoteId).sum

/-- The parent of a change has no identifier, and no other change of the batch creates it. -/
def Change.seeksParent (changes : List Change) (c : Change) : Bool :=
  c.parent.any fun q => q.id.isNone && (creatorOf? changes c.id q.kind q.ref).isNone

/-- The creates and updates of a batch. -/
def livesOf (changes : List Change) : List Change := changes.filter fun c => c.action != .delete

/-! ## Tallies that balance -/

/-- **A tally accounts for a number of references**: each is resolved, left unknown or reported, and
there is one warning for each that is left unknown. -/
structure Tally.Balances (t : Tally) (n : Nat) : Prop where
  total : t.resolved + t.unknown + t.faults.length = n
  warned : t.unknown = t.warnings.length

variable {t u : Tally} {m n : Nat}

theorem Tally.balances_nil : Tally.Balances {} 0 := ⟨rfl, rfl⟩

theorem Tally.balances_addResolved : Tally.Balances (Tally.addResolved {}) 1 := ⟨rfl, rfl⟩

theorem Tally.balances_addUnknown (changeId field target : String) :
    Tally.Balances (Tally.addUnknown {} changeId field target) 1 := ⟨rfl, rfl⟩

theorem Tally.balances_addFault (f : ReferenceFault) : Tally.Balances (Tally.addFault {} f) 1 :=
  ⟨rfl, rfl⟩

theorem Tally.Balances.append (h : t.Balances m) (h' : u.Balances n) :
    (t ++ u).Balances (m + n) where
  total := by
    rw [← h.total, ← h'.total, Tally.append_eq]
    dsimp only
    rw [List.length_append]
    omega
  warned := by
    rw [Tally.append_eq]
    dsimp only
    rw [List.length_append, ← h.warned, ← h'.warned]

namespace Resolution

variable {s : Surroundings} {look : Look} {changeId field : String}
  {Told : List String → Look → Prop}

/-- **What is found for a reference is counted once.** -/
theorem balances_noted (finding : Finding) (target : String) :
    (finding.noted changeId field target).report.Balances 1 := by
  rcases finding with ⟨value, name⟩ | ⟨dependency, name⟩ | ⟨kind, reason⟩
  · exact Tally.balances_addResolved
  · exact Tally.balances_addUnknown ..
  · exact Tally.balances_addFault _

theorem balances_referenceEffect (r : Reference) :
    (referenceEffect s look changeId field r).report.Balances 1 :=
  Tally.balances_nil.append (balances_noted _ _)

theorem balances_scalarEffect (r : Reference) :
    (scalarEffect s look changeId field r).report.Balances 1 :=
  (balances_referenceEffect r).append Tally.balances_nil

/-- An item counts unless it is an identifier. -/
theorem balances_itemEffect (s : Surroundings) (look : Look) (changeId field : String)
    (item : Value) :
    (itemEffect s look changeId field item).report.Balances (if item.isRemoteId then 0 else 1) := by
  have hremote := item.filter_text?_isSome
  rw [← hremote]
  unfold itemEffect
  rcases item.text?.filter looksLikeRemoteId with _ | text
  · dsimp only
    split
    · exact Tally.balances_addFault _
    · exact balances_referenceEffect _
  · exact Tally.balances_nil

/-- **A list counts its items that are not identifiers.** -/
theorem balances_toldEffect (told : List (Value × Look)) :
    (toldEffect s changeId field told).report.Balances
      ((told.map Prod.fst).countP fun item => !item.isRemoteId) := by
  have hitems : (Effect.sum (told.map fun x =>
      itemEffect s x.2 changeId field x.1)).report.Balances
        ((told.map Prod.fst).countP fun item => !item.isRemoteId) := by
    induction told with
    | nil => exact Tally.balances_nil
    | cons x rest ih =>
      have hsum := (balances_itemEffect s x.2 changeId field x.1).append ih
      rw [List.map_cons, List.map_cons, Effect.sum_cons, Effect.report_append, List.countP_cons,
        Nat.add_comm]
      rcases hremote : x.1.isRemoteId with _ | _ <;> simpa [hremote] using hsum
  exact hitems.append Tally.balances_nil

/-- What the fields of a change take balances, field by field. -/
theorem balances_fields {entries : List (String × Value)} {effects : List Effect}
    (h : List.Forall₂ (fun e f => FieldTakes s Told changeId e.1 e.2 f) entries effects) :
    (Effect.sum effects).report.Balances (scalarReferences entries + listedReferences entries) := by
  induction h with
  | nil => exact Tally.balances_nil
  | @cons entry f entries effects hfirst _ ih =>
    obtain ⟨key, v⟩ := entry
    have hstep : f.report.Balances
        (scalarReferences [(key, v)] + listedReferences [(key, v)]) := by
      cases hfirst with
      | idle hidle => simpa [scalarReferences, listedReferences, hidle] using Tally.balances_nil
      | @scalar _ r _ hr _ =>
        simpa [scalarReferences, listedReferences, holdsReference_of_referenceIn? hr] using
          balances_scalarEffect r
      | @list told hholds _ =>
        simpa [scalarReferences, listedReferences, hholds, Value.items?] using
          balances_toldEffect told
    have hsplit : scalarReferences ((key, v) :: entries) + listedReferences ((key, v) :: entries)
        = scalarReferences [(key, v)] + listedReferences [(key, v)]
          + (scalarReferences entries + listedReferences entries) := by
      rcases hholds : holdsReference key v with _ | _
      · simp [scalarReferences, listedReferences, hholds]
      · simp only [scalarReferences, listedReferences, List.countP_cons, List.countP_nil,
          List.filter_cons, hholds, if_true, List.map_cons, List.sum_cons, List.filter_nil,
          List.map_nil, List.sum_nil]
        omega
    rw [hsplit, Effect.sum_cons]
    exact hstep.append ih

variable {changes : List Change} {index : DeclaredIndex} {accessors : Accessors Declaration}

/-- A reference to an identifier waits exactly where another change of the batch creates it. -/
theorem find_eq_pending_iff (changes : List Change) (index : DeclaredIndex)
    (accessors : Accessors Declaration) (look : Look) (changeId kind : String) {r : Reference}
    (hid : r.targetsId = true) :
    (∃ dependency name, (Surroundings.mk (upcomingOf changes) index accessors).find look changeId
        (some kind) r = .pending dependency name)
      ↔ (creatorOf? changes changeId kind r.target).isSome := by
  unfold Surroundings.find
  rw [examine_of_targetsId hid, upcoming?_upcomingOf]
  rcases creatorOf? changes changeId kind r.target with _ | e
  · refine iff_of_false ?_ (by simp)
    rintro ⟨dependency, name, hfind⟩
    rcases hdeclared : Surroundings.declaredId? ⟨upcomingOf changes, index, accessors⟩
      (index.find? (some kind) r.target) r with _ | id <;>
      simp only [Option.map_none, hdeclared] at hfind
    · exact absurd hfind (Surroundings.conclude_ne_pending _ _ _ _ _ _)
    · exact absurd hfind (by simp)
  · exact iff_of_true ⟨_, _, rfl⟩ rfl

/-- **A parent counts when it is sought**: one that the batch creates is only waited for. -/
theorem balances_parentEffect (c : Change) :
    (parentEffect ⟨upcomingOf changes, index, accessors⟩ look c.id c.parent).report.Balances
      (if c.seeksParent changes then 1 else 0) := by
  unfold Change.seeksParent
  rcases c.parent with _ | ⟨kind, ref, _ | known⟩
  · exact Tally.balances_nil
  · have htargets : (Reference.toId ref).targetsId = true :=
      (by decide : equalIgnoringCase idField idField = true)
    have hwaits := find_eq_pending_iff changes index accessors look c.id kind htargets
    rw [parentEffect_of_id_eq_none]
    rcases hfind : (Surroundings.mk (upcomingOf changes) index accessors).find look c.id (some kind)
      (.toId ref) with ⟨value, name⟩ | ⟨dependency, name⟩ | ⟨k, reason⟩ <;> rw [hfind] at hwaits
    · have hnone : creatorOf? changes c.id kind ref = none := by simpa [Reference.toId] using hwaits
      simpa [hnone, Finding.notedAsParent] using Tally.balances_addResolved
    · have hsome : (creatorOf? changes c.id kind ref).isSome := hwaits.mp ⟨_, _, rfl⟩
      obtain ⟨e, he⟩ := Option.isSome_iff_exists.mp hsome
      simpa [he, Finding.notedAsParent] using Tally.balances_nil
    · have hnone : creatorOf? changes c.id kind ref = none := by simpa [Reference.toId] using hwaits
      simpa [hnone, Finding.notedAsParent] using Tally.balances_addFault _
  · exact Tally.balances_nil

/-- **The references of a change**: those in its fields, and its parent where that is sought. -/
def referencesOf (changes : List Change) (c : Change) : Nat :=
  if c.action = .delete then 0
  else scalarReferences c.fields.entries + listedReferences c.fields.entries
    + if c.seeksParent changes then 1 else 0

theorem ChangeTakes.balances {c : Change} {e : Effect}
    (h : ChangeTakes ⟨upcomingOf changes, index, accessors⟩ Told c e) :
    e.report.Balances (referencesOf changes c) := by
  unfold referencesOf
  cases h with
  | delete haction =>
    rw [if_pos haction]
    exact Tally.balances_nil
  | live haction hfields _ =>
    rw [if_neg haction]
    exact (balances_fields hfields).append (balances_parentEffect c)

/-- **What changes take balances, change by change.** -/
theorem balances_changes {cs : List Change} {effects : List Effect}
    (h : List.Forall₂ (ChangeTakes ⟨upcomingOf changes, index, accessors⟩ Told) cs effects) :
    (Effect.sum effects).report.Balances (cs.map (referencesOf changes)).sum := by
  induction h with
  | nil => exact Tally.balances_nil
  | cons hfirst _ ih =>
    rw [Effect.sum_cons, List.map_cons, List.sum_cons]
    exact hfirst.balances.append ih

/-- The references of a batch are those in scalar fields, those in lists and the parents. -/
theorem sum_referencesOf (changes cs : List Change) :
    (cs.map (referencesOf changes)).sum
      = ((livesOf cs).map fun c => scalarReferences c.fields.entries).sum
        + ((livesOf cs).map fun c => listedReferences c.fields.entries).sum
        + (livesOf cs).countP (Change.seeksParent changes) := by
  induction cs with
  | nil => rfl
  | cons c rest ih =>
    rw [List.map_cons, List.sum_cons, ih, livesOf, livesOf, List.filter_cons, referencesOf]
    by_cases hdelete : c.action = .delete
    · simp [hdelete]
    · simp [hdelete, List.countP_cons]
      omega

end Resolution

/-- **Resolution loses no reference and counts none twice.** -/
theorem balances_resolveReferences {p : Provider} (hp : p.Serves) (index : DeclaredIndex)
    (accessors : Accessors Declaration) (changes : List Change) (session : Session) :
    ∃ tally changes' session',
      resolveReferences p index accessors changes session = (.ok tally, changes', session')
      ∧ tally.resolved + tally.unknown + tally.faults.length
        = ((livesOf changes).map fun c => scalarReferences c.fields.entries).sum
          + ((livesOf changes).map fun c => listedReferences c.fields.entries).sum
          + (livesOf changes).countP (Change.seeksParent changes)
      ∧ tally.unknown = tally.warnings.length := by
  obtain ⟨tally, changes', session', hrun⟩ :=
    exists_resolveReferences_eq_ok hp index accessors changes session
  obtain ⟨effects, htakes, htally, -⟩ := exists_effects_of_resolveReferences hrun
  have hbalances := Resolution.balances_changes htakes
  rw [← htally] at hbalances
  exact ⟨tally, changes', session', hrun,
    hbalances.total.trans (Resolution.sum_referencesOf changes changes), hbalances.warned⟩

/-- References of every sort: to what the batch creates, to what exists, to nothing at all, and one
that is an identifier already. -/
def mixedBatch : List Change := [
  { id := "1:c:api:shop", kind := "api", ref := "shop", action := .create },
  { id := "2:c:api_publication:docs", kind := "api_publication", ref := "docs", action := .create
    fields := Dict.ofList [("portal_id", .text "dev"),
      ("auth_strategy_ids",
        .list [.text "0f8fad5b-d9cb-469f-a165-70867728950e", .text "keys", .bool true])]
    parent := some ⟨"api", "shop", none⟩ },
  { id := "3:u:api_version:v1", kind := "api_version", ref := "v1", action := .update
    fields := Dict.ofList [("api_id", .text "shop")]
    parent := some ⟨"api", "lost", none⟩ }]

/-- A remote side with one portal. -/
def developerPortal : Snapshot where
  resources := [{ id := "p0", kind := "portal", name := "dev"
                  labels := Dict.singleton managedLabel "true" }]

theorem balances_mixedBatch : (Provider.ofSnapshot developerPortal).Serves
    ∧ ∃ tally changes' session',
      resolveReferences (.ofSnapshot developerPortal) .none standardAccessors mixedBatch {}
        = (.ok tally, changes', session')
      ∧ tally.resolved + tally.unknown + tally.faults.length = 2 + 2 + 1
      ∧ tally.unknown = tally.warnings.length :=
  ⟨serves_ofSnapshot developerPortal,
    balances_resolveReferences (serves_ofSnapshot developerPortal) .none standardAccessors
      mixedBatch {}⟩

end Reconcile
