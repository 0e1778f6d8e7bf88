import Reconcile.Dict
import Reconcile.Text.Pieces

/-!
# Label — labels that the tool owns

Every resource that the tool creates carries labels that mark it as managed and tell its namespace
and its protection.  They share a start, by which they are kept apart from the labels of the user.
-/

namespace Reconcile

/-- The start of every label that the tool owns. -/
def labelStart : String := "DECLPLAN-"

/-- Marks a resource as managed. -/
def managedLabel : String := "DECLPLAN-managed"

/-- Tells the namespace of a resource. -/
def namespaceLabel : String := "DECLPLAN-namespace"

/-- Marks a resource as protected. -/
def protectedLabel : String := "DECLPLAN-protected"

/-- The namespace of whatever names none. -/
def defaultNamespace : String := "default"

/-- The tool owns a label. -/
def isManagementLabel (key : String) : Bool := labelStart.toList.isPrefixOf key.toList

/-- The labels of the user. -/
def userLabels (labels : Dict String) : Dict String :=
  labels.filter fun key _ => !isManagementLabel key

/-- The labels of the user differ. -/
def userLabelsDiffer (current desired : Dict String) : Bool :=
  userLabels current != userLabels desired

/-- The labels that the tool gives a resource. -/
def managementLabels (scope : String) (isProtected : Bool) : Dict String :=
  let labels := (Dict.singleton managedLabel "true").insert namespaceLabel scope
  if isProtected then labels.insert protectedLabel "true" else labels

/-- The value of a mark that is set, in capitals or not. -/
def isTrueText (s : String) : Bool := equalIgnoringCase s "true"

end Reconcile
