import Reconcile.Change
import Reconcile.Timestamp

/-!
# Plan — a batch of changes with its order, counts and warnings

The summary of a plan is a function of its changes (`Summary.ofChanges`), and every operation that
touches the list of changes computes it anew.
-/

namespace Reconcile

/-- Whether resources that nobody declares any more are deleted. -/
inductive Mode where
  | apply
  | sync
deriving DecidableEq, Inhabited

/-- The name of a mode in documents. -/
def Mode.name : Mode → String
  | .apply => "apply"
  | .sync => "sync"

/-- The mode of a name. -/
def Mode.ofName? : String → Option Mode
  | "apply" => some .apply
  | "sync" => some .sync
  | _ => none

@[simp] theorem Mode.ofName?_name (m : Mode) : ofName? m.name = some m := by
  cases m <;> rfl

/-- How many changes turn protection on, and how many off. -/
structure FlipCounts where
  protecting : Nat := 0
  unprotecting : Nat := 0
deriving DecidableEq, Inhabited

/-- Counts of the changes of a plan: all of them, by action, by kind, and the flips if there are
any. -/
structure Summary where
  total : Nat := 0
  byAction : Dict Nat := ∅
  byKind : Dict Nat := ∅
  flips : Option FlipCounts := none
deriving DecidableEq, Inhabited

/-- How often each key occurs among the keys of a list. -/
def tally {α : Type} (key : α → String) (l : List α) : Dict Nat :=
  l.foldl (fun d a => d.insert (key a) ((d.get? (key a)).getD 0 + 1)) ∅

/-- The number of flips to a status. -/
def flipsTo (on : Bool) (changes : List Change) : Nat :=
  changes.countP fun c => c.flip?.any fun f => f.new == on

/-- The counts of a list of changes. -/
def Summary.ofChanges (changes : List Change) : Summary where
  total := changes.length
  byAction := tally (·.action.name) changes
  byKind := tally (·.kind) changes
  flips :=
    let counts : FlipCounts := ⟨flipsTo true changes, flipsTo false changes⟩
    if counts = ⟨0, 0⟩ then none else some counts

/-- A remark on a change. -/
structure Warning where
  changeId : String
  message : String
deriving DecidableEq, Inhabited

/-- Where a plan comes from. -/
structure Metadata where
  version : String
  generatedAt : Timestamp
  generator : String
  mode : Mode
deriving DecidableEq, Inhabited

/-- A plan. -/
structure Plan where
  metadata : Metadata
  changes : List Change := []
  order : List String := []
  summary : Summary := {}
  warnings : List Warning := []
deriving BEq, Inhabited

namespace Plan

/-- The version of the document format. -/
def formatVersion : String := "1.0"

/-- The generator of plans whose author names none. -/
def defaultGenerator : String := "declplan/0.1.0"

/-- The plan without changes. -/
def start (mode : Mode) (generator : String) (at_ : Timestamp) : Plan :=
  { metadata := ⟨formatVersion, at_, generator, mode⟩ }

/-- Computes the summary anew. -/
def refreshSummary (p : Plan) : Plan := { p with summary := .ofChanges p.changes }

/-- Appends a change. -/
def addChange (p : Plan) (c : Change) : Plan :=
  { p with changes := p.changes ++ [c] }.refreshSummary

/-- Appends a warning. -/
def addWarning (p : Plan) (changeId message : String) : Plan :=
  { p with warnings := p.warnings ++ [⟨changeId, message⟩] }

/-- The plan changes nothing. -/
def isEmpty (p : Plan) : Bool := p.changes.isEmpty

/-- Some change deals with the resource. -/
def hasChange (p : Plan) (kind ref : String) : Bool :=
  p.changes.any fun c => c.kind == kind && c.ref == ref

/-- Some change deletes a resource. -/
def containsDeletes (p : Plan) : Bool := p.changes.any fun c => c.action == .delete

/-- The first change with an identifier. -/
def change? (p : Plan) (id : String) : Option Change := p.changes.find? fun c => c.id == id

/-- The first change that creates the resource. -/
def createOf? (p : Plan) (kind ref : String) : Option Change :=
  p.changes.find? fun c => c.creates kind ref

end Plan

end Reconcile
