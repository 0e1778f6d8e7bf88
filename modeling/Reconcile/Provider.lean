import Reconcile.Resource

/-!
# Provider — asking the remote side

A provider answers two kinds of question, and an answer may depend on the questions asked before.
`Provider.ofSnapshot` answers from a snapshot, always the same way.
-/

namespace Reconcile

/-- A question to the remote side. -/
inductive Query where
  | list (kind : String) (namespaces : List String)
  | get (kind id : String)
deriving DecidableEq

/-- The remote side.  Each answer depends on the questions asked before and on the question: the
managed resources of a kind in namespaces, or the resource with an identifier. -/
structure Provider where
  list : List Query → String → List String → Except StateFault (List Resource)
  get : List Query → String → String → Except StateFault (Option Resource)

/-- What stands for every namespace. -/
def wildcard : String := "*"

namespace Snapshot

/-- The managed resources of a kind in the given namespaces. -/
def list (s : Snapshot) (kind : String) (namespaces : List String) :
    Except StateFault (List Resource) :=
  if !s.covers kind then .error (.notConfigured kind)
  else
    .ok (s.resources.filter fun r =>
      r.kind == kind && r.isManaged
        && (namespaces.contains wildcard || namespaces.contains r.scope))

/-- The first resource of a kind with an identifier, managed or not. -/
def get (s : Snapshot) (kind id : String) : Except StateFault (Option Resource) :=
  if !s.covers kind then .error (.notConfigured kind)
  else .ok (s.resources.find? fun r => r.kind == kind && r.id == id)

end Snapshot

/-- The provider that answers from a snapshot. -/
def Provider.ofSnapshot (s : Snapshot) : Provider where
  list _ kind namespaces := s.list kind namespaces
  get _ kind id := s.get kind id

end Reconcile
