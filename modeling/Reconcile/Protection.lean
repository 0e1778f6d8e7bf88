import Reconcile.Failure

/-!
# Protection — what may happen to a protected resource

A protected resource may not be deleted, and not be updated either, unless the update ends the
protection.
-/

namespace Reconcile

/-- The violation that an update of a resource would be, if it is one. -/
def updateViolation? (kind name : String) (isProtected : Bool) (flip : Option Flip)
    (otherChanges : Bool) : Option Violation :=
  if !isProtected then none
  else if flip.any fun f => !f.new then none
  else if otherChanges then some ⟨kind, name, .update⟩
  else none

/-- The violation that a delete of a resource would be, if it is one. -/
def deleteViolation? (kind name : String) (isProtected : Bool) : Option Violation :=
  if isProtected then some ⟨kind, name, .delete⟩ else none

/-- Success without violations, else the failure that lists them all. -/
def checkViolations (violations : List Violation) : Except Failure Unit :=
  if violations.isEmpty then .ok () else .error (.forbidden violations)

end Reconcile
