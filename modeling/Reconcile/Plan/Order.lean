import Reconcile.Failure
import Reconcile.Plan.Numbering

/-!
# Plan/Order — the order in which changes can run

A change waits for the changes it lists and, through every reference or parent that does not exist
yet, for the create of the same batch that makes it.  `executionOrder` repeatedly takes the first
change of the list whose dependencies have all been taken; where none is left, some changes wait for
each other, and one such circle is reported.
-/

namespace Reconcile

/-- What stands for the identifier of a resource that does not exist yet. -/
def unknownId : String := "[unknown]"

/-- The kind of resource that a reference field points at.  Only fields known to link resources are
listed, so an ordinary text field is never taken for a reference. -/
def targetKind? (field : String) : Option String :=
  if field = "default_application_auth_strategy_id" ∨ field = "auth_strategy_ids" then
    some "application_auth_strategy"
  else if field = "control_plane_id" ∨ field = "members" then some "control_plane"
  else if field = "portal_id" then some "portal"
  else if field = "api_id" ∨ field = "entity_id" then some "api"
  else if field = "gateway_service_id" ∨ field = "service_id" then some "gateway_service"
  else if field = "team_id" then some "team"
  else none

/-! ## The dependencies of a batch -/

/-- The places in a list of the members that pass a test. -/
def placesOf {α : Type} (p : α → Bool) (l : List α) : List Nat :=
  (l.zipIdx.filter fun e => p e.1).map (·.2)

/-- The place of the last create of a resource. -/
def lastCreate? (changes : List Change) (kind ref : String) : Option Nat :=
  (placesOf (fun c => c.creates kind ref) changes).getLast?

/-- The place of the only create with a reference, if there is exactly one. -/
def soleCreate? (changes : List Change) (ref : String) : Option Nat :=
  match placesOf (fun c => c.action == .create && c.ref == ref) changes with
  | [i] => some i
  | _ => none

/-- The create that a reference waits for.  A reference of no known kind waits only where it is not
ambiguous. -/
def awaitedCreate? (changes : List Change) (kind : Option String) (ref : String) : Option Nat :=
  match kind with
  | some k => lastCreate? changes k ref
  | none => soleCreate? changes ref

/-- The references of a field that are left unknown. -/
def ResolvedField.unknownTargets (f : ResolvedField) : List String :=
  (if f.id = unknownId then [f.target] else [])
    ++ ((f.targets.zip f.ids).filter fun e => e.2 == unknownId).map (·.1)

/-- What a change waits for without listing it: kinds, where known, and references. -/
def Change.unknownReferences (c : Change) : List (Option String × String) :=
  (c.references.entries.flatMap fun e => e.2.unknownTargets.map fun t => (targetKind? e.1, t))
    ++ match c.parent with
      | some p => if p.id.isNone then [(some p.kind, p.ref)] else []
      | none => []

/-- The places of the creates that a change waits for without listing them. -/
def implicitPlaces (changes : List Change) (c : Change) : List Nat :=
  c.unknownReferences.filterMap fun r => awaitedCreate? changes r.1 r.2

/-- The places of the other changes that a change waits for, ascending. -/
def dependencyPlaces (changes : List Change) (i : Nat) (c : Change) : List Nat :=
  let implicit := implicitPlaces changes c
  (changes.zipIdx.filter fun e =>
    e.2 != i && (c.dependsOn.contains e.1.id || implicit.contains e.2)).map (·.2)

/-- The places that each change waits for. -/
def dependencyTable (changes : List Change) : List (List Nat) :=
  changes.zipIdx.map fun e => dependencyPlaces changes e.2 e.1

/-- The first listed dependency that names no change of the batch. -/
def danglingDependency? (changes : List Change) : Option (String × String) :=
  let ids := changes.map (·.id)
  changes.findSome? fun c =>
    (c.dependsOn.find? fun d => !ids.contains d).map fun d => (c.id, d)

/-! ## Taking changes one by one -/

/-- A run of the ordering: how many dependencies of each change have not been taken yet, which
changes wait for none, ascending, and which have been taken, in order. -/
structure Agenda where
  waiting : List Nat
  ready : List Nat
  taken : List Nat
deriving DecidableEq

/-- Puts a number at its place in an ascending list. -/
def insertPlace (i : Nat) : List Nat → List Nat
  | [] => [i]
  | j :: rest => if i ≤ j then i :: j :: rest else j :: insertPlace i rest

namespace Agenda

/-- The run before the first change is taken. -/
def start (table : List (List Nat)) : Agenda where
  waiting := table.map List.length
  ready := placesOf List.isEmpty table
  taken := []

/-- Tells the change at a place that one of its dependencies has been taken. -/
def release (a : Agenda) (i : Nat) : Agenda :=
  let left := a.waiting.getD i 0 - 1
  { a with
    waiting := a.waiting.set i left
    ready := if left = 0 then insertPlace i a.ready else a.ready }

/-- The places that wait for a place. -/
def dependents (table : List (List Nat)) (i : Nat) : List Nat :=
  placesOf (fun before => before.contains i) table

/-- Takes the first change that is ready. -/
def step (table : List (List Nat)) (a : Agenda) : Option Agenda :=
  match a.ready with
  | [] => none
  | i :: rest =>
    some ((dependents table i).foldl release { a with ready := rest, taken := a.taken ++ [i] })

/-- Takes changes while some are ready, at most a number of times. -/
def run (table : List (List Nat)) : Nat → Agenda → Agenda
  | 0, a => a
  | n + 1, a =>
    match step table a with
    | none => a
    | some b => run table n b

end Agenda

/-! ## Changes that wait for each other -/

/-- How far a search has come with a place. -/
inductive Mark where
  | unvisited
  | onPath
  | done
deriving DecidableEq

/-- A search ends with a circle, or goes on with a mark for each place. -/
abbrev Search := Except (List Nat) (List Mark)

/-- The mark of a place; there is nothing to visit outside the list. -/
def markAt (marks : List Mark) (i : Nat) : Mark := marks.getD i .done

/-- Goes from the end of a path to one place that it waits for.  A place of the path closes a circle,
a new one is entered. -/
def follow (enter : List Mark → Nat → Search) (path : List Nat) (marks : List Mark) (j : Nat) :
    Search :=
  match markAt marks j with
  | .unvisited => enter marks j
  | .onPath => .error (path.dropWhile (· != j) ++ [j])
  | .done => .ok marks

/-- Enters a place behind a path and goes on to all that it waits for, one after the other, at most
a number of places deep. -/
def visit (table : List (List Nat)) : Nat → List Nat → List Mark → Nat → Search
  | 0, _, marks, _ => .ok marks
  | depth + 1, path, marks, i => do
    let marks ← (table.getD i []).foldlM
      (follow (visit table depth (path ++ [i])) (path ++ [i])) (marks.set i .onPath)
    return marks.set i .done

/-- The circle found from the first of some places, searching at most a number of places deep. -/
def circleWithin? (table : List (List Nat)) (depth : Nat) (starts : List Nat) :
    Option (List Nat) :=
  let search := starts.foldlM (fun marks i =>
    if markAt marks i = .unvisited then visit table depth [] marks i else .ok marks)
    (List.replicate table.length .unvisited)
  match search with
  | .error circle => some circle
  | .ok _ => none

/-- A circle of places that wait for each other, found from the first of some places that leads to
one.  Its first place comes again at the end.  No path is longer than the table. -/
def circle? (table : List (List Nat)) (starts : List Nat) : Option (List Nat) :=
  circleWithin? table table.length starts

/-- The identifier at a place. -/
def idAt (changes : List Change) (i : Nat) : String := ((changes[i]?).map (·.id)).getD ""

/-- The report on changes that cannot be ordered: those that still wait for others. -/
def cycleFault (changes : List Change) (table : List (List Nat)) (a : Agenda) : PlanFault :=
  let stuck := (List.range changes.length).filter fun i => decide (0 < a.waiting.getD i 0)
  let ids := stuck.map (idAt changes)
  let details := match circle? table stuck with
    | some circle => String.intercalate " -> " (circle.map (idAt changes))
    | none => "changes left unordered: " ++ String.intercalate ", " ids
  .cycle ids details

/-- The identifiers of a batch in an order in which they can run. -/
def executionOrder (changes : List Change) : Except PlanFault (List String) :=
  match firstRepeated? (changes.map (·.id)) with
  | some id => .error (.duplicateId id)
  | none =>
    match danglingDependency? changes with
    | some (id, dependency) => .error (.unknownDependency id dependency)
    | none =>
      let table := dependencyTable changes
      let a := Agenda.run table changes.length (.start table)
      if a.taken.length = changes.length then .ok (a.taken.map (idAt changes))
      else .error (cycleFault changes table a)

end Reconcile
