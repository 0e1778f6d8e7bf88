import Reconcile.ChangeId
import Reconcile.Failure
import Reconcile.Plan

/-!
# Plan/Numbering — identifiers that tell the position of a change

`Plan.renumber` puts the changes of a plan into an order and replaces the position inside every
identifier by the place in that order, wherever the identifier occurs: in the changes, their
dependencies, the order and the warnings.  The order has to list every change exactly once.
-/

namespace Reconcile

/-- The first member of a list that occurred before it. -/
def firstRepeated? (l : List String) : Option String := go [] l
where
  /-- The same, after the members seen so far. -/
  go (seen : List String) : List String → Option String
    | [] => none
    | s :: rest => if s ∈ seen then some s else go (s :: seen) rest

/-- An identifier with another position. -/
def ChangeId.moved? (id : String) (position : Nat) : Option String :=
  (ChangeId.parse? id).map fun c => { c with position := position }.text

namespace Plan

/-- Old identifiers with their new ones. -/
abbrev Renaming := List (String × String)

/-- The renaming that gives each identifier of an order its place, counted from a number. -/
def renamingFrom (position : Nat) : List String → Except PlanFault Renaming
  | [] => .ok []
  | old :: rest =>
    match ChangeId.moved? old position with
    | none => .error (.invalidId old)
    | some new => (renamingFrom (position + 1) rest).map fun r => (old, new) :: r

/-- The new identifiers of the dependencies of a change. -/
def renameDependencies (r : Renaming) (id : String) : List String → Except PlanFault (List String)
  | [] => .ok []
  | d :: rest =>
    match r.lookup d with
    | none => .error (.unknownDependency id d)
    | some new => (renameDependencies r id rest).map (new :: ·)

/-- A change under its new identifier. -/
def renameChange (r : Renaming) (c : Change) : Except PlanFault Change :=
  match renameDependencies r c.id c.dependsOn with
  | .error e => .error e
  | .ok dependsOn =>
    match r.lookup c.id with
    | none => .error (.invalidId c.id)
    | some id => .ok { c with id := id, dependsOn := dependsOn }

/-- The changes that an order lists, each under its new identifier. -/
def renameChanges (r : Renaming) (p : Plan) (expected found : Nat) :
    List String → Except PlanFault (List Change)
  | [] => .ok []
  | old :: rest =>
    match p.change? old with
    | none => .error (.incompleteOrder expected found)
    | some c =>
      match renameChange r c with
      | .error e => .error e
      | .ok c => (renameChanges r p expected found rest).map (c :: ·)

/-- The warnings under their new identifiers. -/
def renameWarnings (r : Renaming) : List Warning → Except PlanFault (List Warning)
  | [] => .ok []
  | w :: rest =>
    match r.lookup w.changeId with
    | none => .error (.invalidId w.changeId)
    | some id => (renameWarnings r rest).map fun ws => { w with changeId := id } :: ws

/-- The identifiers of the changes, in the order of the list. -/
def ids (p : Plan) : List String := p.changes.map (·.id)

/-- Checks that an order lists every change of the plan once; gives the number it lists. -/
def checkOrder (p : Plan) (order : List String) : Except PlanFault Nat :=
  match firstRepeated? p.ids with
  | some id => .error (.duplicateId id)
  | none =>
    match firstRepeated? order with
    | some id => .error (.duplicateId id)
    | none =>
      let expected := p.changes.length
      let found := order.countP fun id => p.ids.contains id
      if found ≠ expected ∨ order.length ≠ expected then .error (.incompleteOrder expected found)
      else .ok found

/-- The plan with its changes in an order and with positions for their places. -/
def renumber (p : Plan) (order : List String) : Except PlanFault Plan := do
  let found ← p.checkOrder order
  let names ← renamingFrom 1 order
  let changes ← renameChanges names p p.changes.length found order
  let warnings ← renameWarnings names p.warnings
  return { p with
    changes := changes
    order := changes.map (·.id)
    summary := .ofChanges changes
    warnings := warnings }

end Plan

end Reconcile
