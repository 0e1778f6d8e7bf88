import Reconcile.Json

/-!
# Json/Numeral — what a written number means

An integer of 64 bits is exact; every other number is a double, read by scaling a 64-bit significand
by powers of ten and rounding after each step (`Numeral.value?`).
-/

namespace Reconcile.Json

/-- A number as it is written: its sign and its runs of digits.  An exponent has a sign of its own,
`true` for a negative one. -/
structure Numeral where
  negative : Bool
  whole : List Char
  fraction : Option (List Char)
  exponent : Option (Bool × List Char)

namespace Numeral

/-- Reads digits into a significand below `2 ^ 64`; gives the number of digits that still fit and
the digits behind them. -/
def significandOf (start : Nat) : List Char → Nat × Nat × List Char
  | [] => (start, 0, [])
  | c :: rest =>
    let next := 10 * start + (c.toNat - '0'.toNat)
    if next < Nat.pow 2 64 then
      let (value, used, more) := significandOf next rest
      (value, used + 1, more)
    else (start, 0, c :: rest)

/-- Divides by `10 ^ n`, at most 308 places at a time. -/
def scaleDown (d : Binary64) (n : Nat) : Binary64 :=
  if n ≤ 308 then d.div (.ofNat (Nat.pow 10 n))
  else if d.isZero then d
  else scaleDown (d.div (.ofNat (Nat.pow 10 308))) (n - 308)
termination_by n
decreasing_by omega

/-- A significand scaled by a power of ten; a number past the doubles has no value. -/
def scaled? (negative : Bool) (significand : Nat) (exponent : Int) : Option Binary64 :=
  let start := Binary64.ofNat significand
  let magnitude :=
    if exponent < 0 then some (scaleDown start exponent.natAbs)
    else if exponent ≤ 308 then
      let product := start.mul (.ofNat (Nat.pow 10 exponent.toNat))
      if product.isFinite then some product else none
    else if start.isZero then some start
    else none
  magnitude.map fun d => if negative then d.neg else d

/-- The double a literal writes, from its three runs of digits. -/
def double? (negative : Bool) (whole fraction : List Char) (exponent : Int) : Option Binary64 :=
  let (first, _, wholeRest) := significandOf 0 whole
  if wholeRest.isEmpty then
    let (value, used, _) := significandOf first fraction
    scaled? negative value (exponent - used)
  else
    let (value, used, _) := significandOf first fraction
    scaled? negative value (exponent + wholeRest.length - used)

/-- The value of a run of digits. -/
def digitsValue (digits : List Char) : Nat :=
  digits.foldl (fun n c => 10 * n + (c.toNat - '0'.toNat)) 0

/-- The value of an integer literal: exact where it fits, else a double; `-0` is a double. -/
def integer? (negative : Bool) (whole : List Char) : Option Number :=
  let n := digitsValue whole
  if negative then
    if 0 < n ∧ n ≤ Nat.pow 2 63 then some (.int (-n))
    else (double? true whole [] 0).map .double
  else if n < Nat.pow 2 64 then some (.int n)
  else (double? false whole [] 0).map .double

/-- An exponent too long for 31 bits makes any number zero or puts it out of range. -/
def hugeExponent? (negative zero down : Bool) : Option Number :=
  if zero || down then some (.double (.ofMagnitudeBits negative 0)) else none

/-- The number that a numeral writes; there is none if it is past the doubles. -/
def value? (n : Numeral) : Option Number :=
  match n.fraction, n.exponent with
  | none, none => integer? n.negative n.whole
  | _, _ =>
    let fraction := n.fraction.getD []
    let (down, exponent) := n.exponent.getD (false, [])
    let power := digitsValue exponent
    if power < Nat.pow 2 31 then
      let signedPower : Int := if down then -power else power
      (double? n.negative n.whole fraction signedPower).map .double
    else
      hugeExponent? n.negative ((n.whole ++ fraction).all (· == '0')) down

end Numeral

end Reconcile.Json
