import Reconcile.Change
import Reconcile.Text.Quoted

/-!
# Failure — why a planning pass or a command ends without a result

Each stage has its own type of causes; `Failure` joins them.  The wording of a cause is given by one
function per type, and `Failure.isUserError` tells the causes that lie in the input.
-/

namespace Reconcile

/-- Faults of a desired-state document. -/
inductive DocumentFault where
  | notFound (path : String)
  | unreadable (location : Option String)
  | invalid (message field : String)
  | missingField (kind ref field : String)
  | duplicate (kind ref : String)
deriving DecidableEq

/-- The wording of a document fault. -/
def DocumentFault.message : DocumentFault → String
  | .notFound path => "Configuration file not found: " ++ path
  | .unreadable _ => "Failed to parse configuration"
  | .invalid message _ => "Configuration validation failed: " ++ message
  | .missingField kind ref field =>
    "required field " ++ field ++ " not found in " ++ kind ++ " resource '" ++ ref ++ "'"
  | .duplicate kind ref => "Duplicate " ++ kind ++ " reference: " ++ ref

/-- Faults of a query to the remote side. -/
inductive StateFault where
  | notConfigured (kind : String)
  | provider (kind message : String)
  | snapshot
deriving DecidableEq

/-- The remote side knows nothing of a kind; this is no reason to stop. -/
def StateFault.isNotConfigured : StateFault → Bool
  | .notConfigured _ => true
  | _ => false

/-- The wording of a state fault. -/
def StateFault.message : StateFault → String
  | .notConfigured kind => kind ++ " client not configured"
  | .provider kind message => "failed to query " ++ kind ++ ": " ++ message
  | .snapshot => "State snapshot error"

/-- Faults of a batch of changes. -/
inductive PlanFault where
  | cycle (ids : List String) (details : String)
  | unknownDependency (id dependency : String)
  | duplicateId (id : String)
  | invalidId (id : String)
  | incompleteOrder (expected found : Nat)
deriving DecidableEq

/-- The wording of a plan fault. -/
def PlanFault.message : PlanFault → String
  | .cycle _ details => "circular dependency detected in plan: " ++ details
  | .unknownDependency id dependency =>
    "change " ++ id ++ " depends on unknown change " ++ dependency
  | .duplicateId id => "duplicate change identifier: " ++ id
  | .invalidId id => "invalid change identifier: " ++ id
  | .incompleteOrder expected found =>
    "execution order lists " ++ toString found ++ " changes, plan has " ++ toString expected

/-- A reference that could not be resolved. -/
structure ReferenceFault where
  changeId : String
  field : String
  target : String
  kind : Option String
  reason : String
deriving DecidableEq

/-- The wording of a reference fault. -/
def ReferenceFault.message (f : ReferenceFault) : String :=
  let what := match f.kind with
    | some kind => kind ++ " reference "
    | none => "reference "
  "change " ++ f.changeId ++ ": failed to resolve " ++ what ++ quoted f.target ++ " in field "
    ++ f.field ++ ": " ++ f.reason

/-- An update or delete that protection forbids. -/
structure Violation where
  kind : String
  name : String
  action : Action
deriving DecidableEq

/-- The wording of a violation. -/
def Violation.message (v : Violation) : String :=
  let verb := match v.action with
    | .delete => "deleted"
    | .update => "updated"
    | .create => "modified"
  v.kind ++ " " ++ quoted v.name ++ " is protected and cannot be " ++ verb

/-- Lines of a list, numbered from one, each on a line of its own. -/
def numberedLines (lines : List String) : String :=
  String.join (lines.zipIdx.map fun e => "\n  " ++ toString (e.2 + 1) ++ ". " ++ e.1)

/-- All reference faults of a pass in one message. -/
def unresolvedMessage (faults : List ReferenceFault) : String :=
  toString faults.length ++ " reference(s) could not be resolved:"
    ++ numberedLines (faults.map ReferenceFault.message)

/-- All violations of a pass in one message. -/
def violationsMessage (violations : List Violation) : String :=
  "Cannot generate plan due to protected resources:"
    ++ numberedLines (violations.map Violation.message)
    ++ "\n\nTo proceed, first update these resources to set protected: false"

/-- Why a pass or a command fails. -/
inductive Failure where
  | document (fault : DocumentFault)
  | state (fault : StateFault)
  | plan (fault : PlanFault)
  | unresolved (faults : List ReferenceFault)
  | forbidden (violations : List Violation)
  | fileAccess
  | serialization
  | internal (message : String)
deriving DecidableEq

namespace Failure

/-- The wording of a failure. -/
def message : Failure → String
  | .document fault => "Configuration error: " ++ fault.message
  | .state fault => "State error: " ++ fault.message
  | .plan fault => "Planning error: " ++ fault.message
  | .unresolved faults => "Reference resolution error: " ++ unresolvedMessage faults
  | .forbidden violations => violationsMessage violations
  | .fileAccess => "IO error"
  | .serialization => "Serialization error"
  | .internal message => "Internal error: " ++ message

/-- The cause lies in what the user wrote. -/
def isUserError : Failure → Bool
  | .unresolved _ => true
  | .forbidden _ => true
  | .plan (.cycle _ _) => true
  | .document (.missingField _ _ _) => false
  | .document _ => true
  | _ => false

end Failure

end Reconcile
