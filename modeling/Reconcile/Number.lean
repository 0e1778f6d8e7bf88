import Reconcile.Number.Shortest

/-!
# Number — integers and doubles

A number of a document is an integer of 64 bits or a double, and an integer never equals a double.
Integers print exactly; a double prints with the fewest digits that read back.
-/

namespace Reconcile

/-- A number of a document. -/
inductive Number where
  | int (value : Int)
  | double (value : Binary64)
deriving DecidableEq, Inhabited

namespace Number

/-- Numeric equality within one of the two kinds. -/
def same : Number → Number → Bool
  | .int a, .int b => a == b
  | .double a, .double b => a.equal b
  | _, _ => false

instance : BEq Number := ⟨same⟩

/-- Doubles are positional from `0.00001` up to sixteen digits before the point. -/
def layout : DecimalLayout := ⟨-5, 15⟩

/-- The text of a finite double. -/
def doubleText (d : Binary64) : String :=
  (if d.isNegative then "-" else "")
    ++ (if d.isZero then "0.0" else layout.render d.shortest)

/-- The text of a number. -/
def text : Number → String
  | .int value => toString value
  | .double value => doubleText value

/-- Integers that a document can hold: those of 64 bits, signed or not. -/
def fits (n : Int) : Bool := -(Nat.pow 2 63) ≤ n && n < Nat.pow 2 64

/-- The value of a number that is a natural one. -/
def natural? : Number → Option Nat
  | .int value => if 0 ≤ value then some value.toNat else none
  | .double _ => none

end Number

end Reconcile
