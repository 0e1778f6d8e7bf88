import Mathlib.Logic.Relation
import Reconcile.Proofs.Digest
import Reconcile.Proofs.Numbering.Result
import Reconcile.Proofs.Pass.Stages

/-!
# Proofs/Summary — the summary of a plan counts its changes

The summary is stored beside the changes and computed anew whenever they are touched, so it never
lags behind (`Plan.UpToDate`): not behind a change that is added, not behind the changes that
numbering moves and renames, and not behind those that a pass has taken out and put back.  What it
says is written out as `Summary.Counts`, without the fold that computes it.

* `countsBy_tally` — a tally has an entry for every key of the list, with the number of its members.
* `counts_summary` — the summary of a plan counts its changes, whatever is done to the plan.
-/

open Relation (ReflTransGen)

namespace Reconcile

/-! ## Tallies -/

theorem Entries.sum_values_insert {l : List (String × Nat)} (hasc : Ascending l) (key : String)
    (n : Nat) : ((insert key n l).map (·.2)).sum + (get? key l).getD 0 = (l.map (·.2)).sum + n := by
  induction l with
  | nil => simp [insert, get?]
  | cons e rest ih =>
    obtain ⟨hlt, hrest⟩ := List.pairwise_cons.mp hasc
    unfold insert
    split
    · next hkey =>
      have hnone : get? key (e :: rest) = none := by
        rw [Option.eq_none_iff_forall_ne_some]
        intro value hvalue
        rcases List.mem_cons.mp (mem_of_get? hvalue) with rfl | hmem
        · exact String.lt_irrefl _ hkey
        · exact String.lt_asymm hkey (hlt _ hmem)
      simp only [hnone, List.map_cons, List.sum_cons, Option.getD_none]
      omega
    · split
      · next hkey =>
        have hne : e.1 ≠ key := fun heq => String.lt_irrefl _ (heq ▸ hkey)
        have hsum := ih hrest
        simp only [get?, if_neg hne, List.map_cons, List.sum_cons]
        omega
      · next hge hle =>
        have heq : e.1 = key := (eq_of_not_lt_of_not_lt hge hle).symm
        simp only [get?, if_pos heq, List.map_cons, List.sum_cons, Option.getD_some]
        omega

/-- **Setting a key replaces what it adds to the sum of a map.** -/
theorem Dict.sum_values_insert (d : Dict Nat) (key : String) (n : Nat) :
    (d.insert key n).values.sum + (d.get? key).getD 0 = d.values.sum + n :=
  Entries.sum_values_insert d.ascending key n

/-- **A map counts a list by a key**: it has an entry for a text exactly where the text is the key of
some member, and the entry is the number of these. -/
structure CountsBy {α : Type} (key : α → String) (l : List α) (d : Dict Nat) : Prop where
  entry : ∀ k n, d.get? k = some n ↔ (∃ a ∈ l, key a = k) ∧ n = l.countP fun a => key a = k
  sum : d.values.sum = l.length

section Tally

variable {α : Type} (key : α → String) (l : List α)

theorem tally_concat (a : α) : tally key (l ++ [a])
    = (tally key l).insert (key a) (((tally key l).get? (key a)).getD 0 + 1) := by
  rw [tally, List.foldl_append]
  rfl

/-- A text that is no key has no entry; else its entry is the number of members with it. -/
theorem get?_tally (k : String) : (tally key l).get? k
    = if l.countP (fun a => key a = k) = 0 then none
      else some (l.countP fun a => key a = k) := by
  -- from the back, as the members are counted in order
  induction l using List.reverseRecOn generalizing k with
  | nil => rfl
  | append_singleton l a ih =>
    have hcount : ((tally key l).get? (key a)).getD 0 = l.countP fun b => key b = key a := by
      rw [ih (key a)]
      split
      · next hzero => exact hzero.symm
      · rfl
    rw [tally_concat, Dict.get?_insert, hcount, List.countP_append, List.countP_singleton]
    by_cases hk : k = key a
    · subst hk
      simp
    · rw [if_neg hk, ih k, if_neg (show ¬decide (key a = k) = true by simpa using Ne.symm hk),
        Nat.add_zero]

theorem sum_values_tally : (tally key l).values.sum = l.length := by
  induction l using List.reverseRecOn with
  | nil => rfl
  | append_singleton l a ih =>
    have hsum := (tally key l).sum_values_insert (key a)
      (((tally key l).get? (key a)).getD 0 + 1)
    rw [← tally_concat] at hsum
    rw [List.length_append, List.length_singleton]
    omega

/-- **A tally counts its list.** -/
theorem countsBy_tally : CountsBy key l (tally key l) where
  entry k n := by
    have hpos : 0 < l.countP (fun a => key a = k) ↔ ∃ a ∈ l, key a = k := by
      simp [List.countP_pos_iff]
    rw [get?_tally, ← hpos]
    split
    · next hzero => simp [hzero]
    · next hne =>
      rw [Option.some_inj, eq_comm]
      exact (and_iff_right (Nat.pos_of_ne_zero hne)).symm
  sum := sum_values_tally key l

end Tally

/-! ## The counts of a list of changes -/

/-- The change turns protection on, or off: its resource has the other status. -/
def Change.Turns (on : Bool) (c : Change) : Prop := c.protection = some (.flip ⟨!on, on⟩)

instance (on : Bool) (c : Change) : Decidable (c.Turns on) :=
  inferInstanceAs (Decidable (c.protection = some (.flip ⟨!on, on⟩)))

/-- **The summary counts the changes**: all of them, those of an action, those of a kind, and those
that turn protection on or off, if there are any. -/
structure Summary.Counts (s : Summary) (changes : List Change) : Prop where
  total : s.total = changes.length
  byAction : CountsBy (·.action.name) changes s.byAction
  byKind : CountsBy (·.kind) changes s.byKind
  action : ∀ (a : Action) n, s.byAction.get? a.name = some n
    ↔ (∃ c ∈ changes, c.action = a) ∧ n = changes.countP fun c => c.action = a
  flips : s.flips.isSome = true ↔ ∃ c ∈ changes, ∃ on, c.Turns on
  turned : ∀ counts, s.flips = some counts → counts.protecting = changes.countP (Change.Turns true)
    ∧ counts.unprotecting = changes.countP (Change.Turns false)

theorem Change.any_flip?_iff {c : Change} {on : Bool} :
    (c.flip?.any fun f => f.new == on) = true ↔ c.Turns on := by
  rw [Turns]
  rcases hprotection : c.protection with _ | ⟨_ | ⟨old, new⟩⟩
  · simp [flip?, hprotection]
  · simp [flip?, hprotection, Protection.flip?]
  · cases old <;> cases new <;> cases on <;> simp [flip?, hprotection, Protection.flip?, Flip.isChange]

/-- The flips to a status are counted where protection is turned to it. -/
theorem flipsTo_eq_countP (on : Bool) (changes : List Change) :
    flipsTo on changes = changes.countP (Change.Turns on) := by
  refine List.countP_congr fun c _ => ?_
  rw [Change.any_flip?_iff, decide_eq_true_iff]

/-- **The summary that is computed from changes counts them.** -/
theorem Summary.counts_ofChanges (changes : List Change) : (ofChanges changes).Counts changes := by
  have hflips : (ofChanges changes).flips
      = if flipsTo true changes = 0 ∧ flipsTo false changes = 0 then none
        else some ⟨flipsTo true changes, flipsTo false changes⟩ := by
    simp [ofChanges]
  have hzero : ∀ on, flipsTo on changes = 0 ↔ ∀ c ∈ changes, ¬c.Turns on := fun on => by
    simp [flipsTo_eq_countP, List.countP_eq_zero]
  have hnone : (flipsTo true changes = 0 ∧ flipsTo false changes = 0)
      ↔ ¬∃ c ∈ changes, ∃ on, c.Turns on := by
    rw [hzero, hzero]
    simp only [Bool.exists_bool, not_exists, not_and, not_or, ← forall_and, and_comm]
  refine ⟨rfl, countsBy_tally _ changes, countsBy_tally _ changes, fun a n => ?_, ?_,
    fun counts hcounts => ?_⟩
  · have hentry := (countsBy_tally (·.action.name) changes).entry a.name n
    simp only [Action.name_injective.eq_iff] at hentry
    exact hentry
  · rw [hflips]
    split
    · next h => simpa using hnone.mp h
    · next h => simpa using not_not.mp (mt hnone.mpr h)
  · rw [hflips, Option.ite_none_left_eq_some] at hcounts
    obtain ⟨-, hcounts⟩ := hcounts
    obtain rfl := Option.some.inj hcounts
    exact ⟨flipsTo_eq_countP true changes, flipsTo_eq_countP false changes⟩

namespace Plan

/-! ## Work on a plan -/

/-- A plan that is worked on from the start: a new one, or one that a pass gives. -/
inductive Begun : Plan → Prop
  | new (mode : Mode) (generator : String) (at_ : Timestamp) : Begun (start mode generator at_)
  | passed {provider : Provider} {accessors : Accessors Declaration} {planners : List Planner}
      {state : DesiredState} {options : PassOptions} {now : Timestamp} {p : Plan}
      (h : (generatePlan provider accessors planners state options now).1 = .ok p) : Begun p

/-- One step of work on a plan. -/
inductive Step (p : Plan) : Plan → Prop
  | change (c : Change) : Step p (p.addChange c)
  | warning (changeId message : String) : Step p (p.addWarning changeId message)
  | numbered {order : List String} {q : Plan} (h : p.renumber order = .ok q) : Step p q

/-- The summary is that of the changes. -/
def UpToDate (p : Plan) : Prop := p.summary = .ofChanges p.changes

variable {p q : Plan}

theorem upToDate_of_renumber {order : List String} (h : p.renumber order = .ok q) : q.UpToDate :=
  (metadata_summary_of_renumber h).2

/-- A pass numbers its plan in the end, and the summary is computed there. -/
theorem Begun.upToDate (h : p.Begun) : p.UpToDate := by
  cases h with
  | new => rfl
  | passed h =>
    obtain ⟨desired, d, resolved, session, -, -, -, hfinish⟩ := generatePlan_eq_ok_iff.mp h
    obtain ⟨order, -, hnumber⟩ := finishPlan_eq_ok_iff.mp hfinish
    exact upToDate_of_renumber hnumber

/-- **No step leaves the summary behind.** -/
theorem Step.upToDate (h : p.Step q) (hp : p.UpToDate) : q.UpToDate := by
  cases h with
  | change c => rfl
  | warning changeId message => exact hp
  | numbered h => exact upToDate_of_renumber h

/-- However many steps are made, the summary is not left behind. -/
theorem upToDate_of_steps (h : ReflTransGen Step p q) (hp : p.UpToDate) : q.UpToDate := by
  induction h with
  | refl => exact hp
  | tail _ hstep ih => exact hstep.upToDate ih

/-- **The summary of a plan counts its changes**, from the start and after every step of work. -/
theorem counts_summary (hp : p.Begun) (h : ReflTransGen Step p q) : q.summary.Counts q.changes := by
  have hcurrent : q.summary = .ofChanges q.changes := upToDate_of_steps h hp.upToDate
  rw [hcurrent]
  exact Summary.counts_ofChanges q.changes

/-- An api that is created, with a remark on it, and behind it one that is protected from now on. -/
def protectingPlan : Plan :=
  (((start .apply defaultGenerator ⟨0, 0⟩).addChange
    { id := "1:c:api:orders", kind := "api", ref := "orders", action := .create }).addWarning
    "1:c:api:orders" "new").addChange
    { id := "2:u:api:billing", kind := "api", ref := "billing", resourceId := some "a1"
      action := .update, protection := some (.flip ⟨false, true⟩) }

/-- Numbered the other way round, the plan still has the counts of its two changes. -/
theorem counts_protectingPlan : ∃ q : Plan,
    protectingPlan.renumber ["2:u:api:billing", "1:c:api:orders"] = .ok q
      ∧ q.changes.map (·.id) = ["1:u:api:billing", "2:c:api:orders"]
      ∧ q.summary = {
          total := 2
          byAction := Dict.ofList [("CREATE", 1), ("UPDATE", 1)]
          byKind := Dict.singleton "api" 2
          flips := some ⟨1, 0⟩ }
      ∧ q.summary.Counts q.changes := by
  have hmade : ReflTransGen Step (start .apply defaultGenerator ⟨0, 0⟩) protectingPlan :=
    .tail (.tail (.single (.change _)) (.warning _ _)) (.change _)
  obtain ⟨q, hq, hread⟩ := exists_ok_of_toOption
    (f := fun q : Plan => (q.changes.map (·.id), q.summary))
    (x := protectingPlan.renumber ["2:u:api:billing", "1:c:api:orders"])
    (b := (["1:u:api:billing", "2:c:api:orders"], {
      total := 2
      byAction := Dict.ofList [("CREATE", 1), ("UPDATE", 1)]
      byKind := Dict.singleton "api" 2
      flips := some ⟨1, 0⟩ })) (by decide +kernel)
  obtain ⟨hids, hsummary⟩ := Prod.mk.inj hread
  exact ⟨q, hq, hids, hsummary, counts_summary (.new ..) (hmade.tail (.numbered hq))⟩

end Plan

end Reconcile
