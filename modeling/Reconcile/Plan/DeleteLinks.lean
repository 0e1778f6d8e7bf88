import Reconcile.Change

/-!
# Plan/DeleteLinks — deletes that must wait for other deletes

The remote side refuses to delete an auth strategy while an api or a publication uses it, and no
reference of a delete tells so.  `linkDeletes` makes each delete of a strategy wait for the deletes
of the apis and publications of its namespace; where a namespace is not known, a publication counts
if it lists the strategy.
-/

namespace Reconcile

/-- Kinds whose deletes wait, with the kinds whose deletes they wait for. -/
def deleteAfter : List (String × List String) :=
  [("application_auth_strategy", ["api", "api_publication"])]

/-- The field in which a publication lists its auth strategies. -/
def strategyListField : String := "auth_strategy_ids"

/-- A publication lists a strategy by its remote identifier. -/
def listsStrategy (publication : Change) (id : String) : Bool :=
  match (publication.fields.get? strategyListField).bind Value.items? with
  | some items => items.any fun v => v.text? == some id
  | none => false

/-- A delete waits for another one of a kind that it waits for. -/
def waitsForDelete (delete other : Change) : Bool :=
  if !delete.scope.isEmpty && !other.scope.isEmpty then delete.scope == other.scope
  else if other.kind == "api_publication" then
    match delete.resourceId with
    | some id => listsStrategy other id
    | none => false
  else delete.scope == other.scope

/-- The identifiers of the deletes that a change has to wait for. -/
def deleteLinks (changes : List Change) (c : Change) : List String :=
  if c.action != .delete then []
  else
    match deleteAfter.lookup c.kind with
    | none => []
    | some kinds =>
      (changes.filter fun d =>
        d.action == .delete && kinds.contains d.kind && waitsForDelete c d).map (·.id)

/-- The batch with the dependencies between deletes written down. -/
def linkDeletes (changes : List Change) : List Change :=
  changes.map fun c => (deleteLinks changes c).foldl Change.addDependency c

end Reconcile
