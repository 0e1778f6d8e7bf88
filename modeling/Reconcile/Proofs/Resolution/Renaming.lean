import Reconcile.Proofs.Numbering
import Reconcile.Proofs.Resolution.Effects
import Mathlib.Logic.Function.Basic

/-!
# Proofs/Resolution/Renaming — resolution follows a renaming of identifiers

Resolution compares the identifiers of changes and looks at nothing else in them.  Where all of them
are renamed and different ones stay different, every step of it has its effect under the new names.
Main facts: `effectOf_renamed` and `Effect.onChange_renamed`.
-/

namespace Reconcile

open Function (Injective)

variable {move : String → String}

/-! ## What is renamed -/

/-- A create of the batch under its new identifier. -/
def Upcoming.renamed (move : String → String) (u : Upcoming) : Upcoming := { u with id := move u.id }

/-- The same surroundings, with the creates of the batch under their new identifiers. -/
def Surroundings.renamed (move : String → String) (s : Surroundings) : Surroundings :=
  { s with upcoming := s.upcoming.map (Upcoming.renamed move) }

/-- The same finding; one that waits does so for the new identifier. -/
def Finding.renamed (move : String → String) : Finding → Finding
  | .known value name => .known value name
  | .pending dependency name => .pending (move dependency) name
  | .missing kind reason => .missing kind reason

/-- The same examination. -/
def Examination.renamed (move : String → String) : Examination → Examination
  | .settled finding => .settled (finding.renamed move)
  | .lookUp kind name => .lookUp kind name

/-- The same fault, of the change under its new identifier. -/
def ReferenceFault.renamed (move : String → String) (f : ReferenceFault) : ReferenceFault :=
  { f with changeId := move f.changeId }

/-- The same tally under the new identifiers. -/
def Tally.renamed (move : String → String) (t : Tally) : Tally :=
  { t with
    warnings := t.warnings.map (Warning.renamed move)
    faults := t.faults.map (ReferenceFault.renamed move) }

theorem Tally.renamed_append (t u : Tally) :
    (t ++ u).renamed move = t.renamed move ++ u.renamed move := by
  simp [Tally.renamed, Tally.append_eq]

/-- The creates of a renamed batch. -/
theorem upcomingOf_renamed (changes : List Change) :
    upcomingOf (changes.map (Change.renamed move))
      = (upcomingOf changes).map (Upcoming.renamed move) := by
  unfold upcomingOf
  rw [List.filter_map, List.map_map, List.map_map]
  rfl

/-! ## Dependencies -/

namespace Change

theorem addDependency_renamed (hmove : Injective move) (c : Change) (d : String) :
    (c.renamed move).addDependency (move d) = (c.addDependency d).renamed move := by
  have hlisted : (move d = (c.renamed move).id ∨ move d ∈ (c.renamed move).dependsOn)
      ↔ (d = c.id ∨ d ∈ c.dependsOn) := by
    have hself : move d = move c.id ↔ d = c.id := hmove.eq_iff
    have hmem : move d ∈ c.dependsOn.map move ↔ d ∈ c.dependsOn :=
      List.mem_map_of_injective hmove
    exact or_congr hself hmem
  unfold addDependency
  by_cases h : d = c.id ∨ d ∈ c.dependsOn
  · rw [if_pos h, if_pos (hlisted.mpr h)]
  · rw [if_neg h, if_neg (mt hlisted.mp h)]
    simp [renamed]

theorem addDependencies_renamed (hmove : Injective move) (c : Change) (ds : List String) :
    (ds.map move).foldl addDependency (c.renamed move)
      = (ds.foldl addDependency c).renamed move := by
  induction ds generalizing c with
  | nil => rfl
  | cons d rest ih => rw [List.map_cons, List.foldl_cons, addDependency_renamed hmove, ih,
      List.foldl_cons]

end Change

namespace Resolution

/-! ## Effects -/

namespace Effect

/-- The same effect under the new identifiers. -/
def renamed (move : String → String) (e : Effect) : Effect :=
  { e with awaited := e.awaited.map move, report := e.report.renamed move }

theorem renamed_append (e f : Effect) :
    (e ++ f).renamed move = e.renamed move ++ f.renamed move := by
  have hawaited : (e ++ f).awaited.map move = e.awaited.map move ++ f.awaited.map move :=
    List.map_append
  unfold renamed
  rw [hawaited, report_append, Tally.renamed_append]
  rfl

theorem renamed_sum (effects : List Effect) :
    (sum effects).renamed move = sum (effects.map (renamed move)) := by
  induction effects with
  | nil => rfl
  | cons e rest ih => rw [sum_cons, renamed_append, ih, List.map_cons, sum_cons]

/-- **An effect does the same under the new identifiers.** -/
theorem onChange_renamed (hmove : Injective move) (e : Effect) (c : Change) :
    (e.renamed move).onChange (c.renamed move) = (e.onChange c).renamed move := by
  unfold onChange
  have hdeps := Change.addDependencies_renamed hmove c e.awaited
  change ((e.awaited.map move).foldl Change.addDependency (c.renamed move)).noting _ _ = _
  rw [hdeps]
  rfl

end Effect

/-! ## Deciding references -/

variable (hmove : Injective move) (s : Surroundings) (look : Look) (id : String)

include hmove

omit s look in
theorem bne_renamed (id other : String) : (move other != move id) = (other != id) := by
  rw [Bool.eq_iff_iff, bne_iff_ne, bne_iff_ne, hmove.ne_iff]

theorem upcoming?_renamed (kind : Option String) (ref : String) :
    (s.renamed move).upcoming? (move id) kind ref
      = (s.upcoming? id kind ref).map (Upcoming.renamed move) := by
  unfold Surroundings.upcoming? Surroundings.renamed
  rw [List.find?_map]
  congr 2
  funext u
  simp only [Function.comp_apply, Upcoming.renamed, bne_renamed hmove]

theorem isAmbiguous_renamed (ref : String) :
    (s.renamed move).isAmbiguous (move id) ref = s.isAmbiguous id ref := by
  have htest : (fun u : Upcoming => u.ref == ref && u.id != move id) ∘ Upcoming.renamed move
      = fun u => u.ref == ref && u.id != id := by
    funext u
    simp only [Function.comp_apply, Upcoming.renamed, bne_renamed hmove]
  have hkinds : ((s.renamed move).upcoming.filter fun u => u.ref == ref && u.id != move id).map
      (·.kind) = (s.upcoming.filter fun u => u.ref == ref && u.id != id).map (·.kind) := by
    unfold Surroundings.renamed
    rw [List.filter_map, List.map_map, htest]
    rfl
  unfold Surroundings.isAmbiguous
  rw [hkinds]
  rfl

/-- **References are decided alike.** -/
theorem examine_renamed (kind : Option String) (r : Reference) :
    (s.renamed move).examine (move id) kind r = (s.examine id kind r).renamed move := by
  unfold Surroundings.examine
  rw [isAmbiguous_renamed hmove]
  split
  · rfl
  · have hfield : (s.renamed move).declaredField? ((s.renamed move).index.find? kind r.target) r
        = s.declaredField? (s.index.find? kind r.target) r := rfl
    have hid : (s.renamed move).declaredId? ((s.renamed move).index.find? kind r.target) r
        = s.declaredId? (s.index.find? kind r.target) r := rfl
    dsimp only
    rw [hfield, hid, upcoming?_renamed hmove]
    rcases s.declaredField? (s.index.find? kind r.target) r with _ | value
    · rcases s.upcoming? id kind r.target with _ | u
      · rcases s.declaredId? (s.index.find? kind r.target) r with _ | value
        · have hname : ((s.renamed move).index.find? kind r.target).bind
              (s.renamed move).declaredName? = (s.index.find? kind r.target).bind s.declaredName? :=
            rfl
          have hindex : (s.renamed move).index.find? kind r.target
              = s.index.find? kind r.target := rfl
          dsimp only [Option.map_none]
          rw [hname, hindex]
          split <;> rfl
        · rfl
      · rfl
    · rfl

omit hmove in
theorem lookUps_renamed (e : Examination) : (e.renamed move).lookUps = e.lookUps := by
  cases e <;> rfl

theorem find_renamed (kind : Option String) (r : Reference) :
    (s.renamed move).find look (move id) kind r = (s.find look id kind r).renamed move := by
  unfold Surroundings.find
  rw [examine_renamed hmove]
  rcases s.examine id kind r with finding | ⟨k, name⟩
  · rfl
  · have hconclude : ∀ found : Option Resource,
        conclude r k name found = (conclude r k name found).renamed move := by
      intro found
      rcases found with _ | found
      · rfl
      · unfold conclude
        dsimp only
        split <;> rfl
    exact hconclude _

/-! ## Steps -/

variable (field : String)

theorem referenceEffect_renamed (r : Reference) :
    referenceEffect (s.renamed move) look (move id) field r
      = (referenceEffect s look id field r).renamed move := by
  unfold referenceEffect
  rw [examine_renamed hmove, find_renamed hmove, lookUps_renamed, Effect.renamed_append]
  congr 1
  cases s.find look id (targetKind? field) r <;> rfl

theorem scalarEffect_renamed (r : Reference) :
    scalarEffect (s.renamed move) look (move id) field r
      = (scalarEffect s look id field r).renamed move := by
  unfold scalarEffect
  rw [referenceEffect_renamed hmove, find_renamed hmove, Effect.renamed_append]
  congr 1
  cases s.find look id (targetKind? field) r <;> rfl

theorem itemOf?_renamed (item : Value) :
    itemOf? (s.renamed move) look (move id) field item = itemOf? s look id field item := by
  unfold itemOf?
  split
  · rfl
  · congr 1
    funext r
    rw [find_renamed hmove]
    cases s.find look id (targetKind? field) r <;> rfl

theorem itemEffect_renamed (item : Value) :
    itemEffect (s.renamed move) look (move id) field item
      = (itemEffect s look id field item).renamed move := by
  unfold itemEffect
  split
  · rfl
  · split
    · rfl
    · exact referenceEffect_renamed hmove s look id field _

theorem fieldEffect_renamed (v : Value) :
    fieldEffect (s.renamed move) look (move id) field v
      = (fieldEffect s look id field v).renamed move := by
  unfold fieldEffect
  split
  · split
    · have hitems := funext (itemEffect_renamed hmove s look id field)
      have hitem := funext (itemOf?_renamed hmove s look id field)
      unfold listEffect listOf?
      rw [Effect.renamed_append, Effect.renamed_sum, List.map_map, hitem, hitems]
      rfl
    · split
      · exact scalarEffect_renamed hmove s look id field _
      · rfl
  · rfl

theorem parentEffect_renamed (parent : Option Parent) :
    parentEffect (s.renamed move) look (move id) parent
      = (parentEffect s look id parent).renamed move := by
  rcases parent with _ | ⟨kind, ref, _ | known⟩
  · rfl
  · unfold parentEffect
    dsimp only
    rw [examine_renamed hmove, find_renamed hmove, lookUps_renamed, Effect.renamed_append]
    congr 1
    cases s.find look id (some kind) (.toId ref) <;> rfl
  · rfl

/-- **Resolution has the same effect on a change under the new identifiers.** -/
theorem effectOf_renamed (c : Change) :
    effectOf (s.renamed move) look (c.renamed move) = (effectOf s look c).renamed move := by
  have haction : (c.renamed move).action = c.action := rfl
  unfold effectOf
  rw [haction]
  split
  · rfl
  · have hfields : fieldsEffect (s.renamed move) look (move c.id) c.fields.entries
        = (fieldsEffect s look c.id c.fields.entries).renamed move := by
      unfold fieldsEffect
      rw [Effect.renamed_sum, List.map_map]
      congr 2
      funext e
      exact fieldEffect_renamed hmove s look c.id e.1 e.2
    rw [Effect.renamed_append, ← hfields, ← parentEffect_renamed hmove]
    rfl

end Resolution

end Reconcile
