import Reconcile.Number.Binary64

/-!
# Number/Shortest — the fewest decimal digits that read back as a double

Every real number that rounds to a double lies in an interval around it.  On the grid of decimals
with one digit, then two, and so on, the two neighbours of the double are tried; the first grid
with a neighbour inside the interval wins, the nearer of two, and of two equally near the even one.
-/

namespace Reconcile

/-- A positive decimal: `digits * 10 ^ exponent`. -/
structure Decimal where
  digits : Nat
  exponent : Int
deriving DecidableEq

namespace Binary64

/-- Four times the magnitude is `quarters / denominator`, and so are its neighbours' midpoints. -/
private def quarters (d : Binary64) (k : Nat) : Nat := k * Nat.pow 2 (d.power - 1074)

/-- The lower end of the interval that rounds to a double, in quarters of the last place. -/
private def lowerQuarters (d : Binary64) : Nat :=
  if d.significand = Nat.pow 2 52 ∧ 1 < d.exponentField then 4 * d.significand - 1
  else 4 * d.significand - 2

/-- The decimal `digits * 10 ^ exponent` rounds to a double. -/
private def readsBack (d : Binary64) (digits : Nat) (exponent : Int) : Bool :=
  let num := 4 * digits * Nat.pow 10 exponent.toNat * d.denominator
  let den := Nat.pow 10 (-exponent).toNat
  let low := d.quarters d.lowerQuarters * den
  let high := d.quarters (4 * d.significand + 2) * den
  if d.significand % 2 = 0 then low ≤ num && num ≤ high else low < num && num < high

/-- The greatest power of ten that a positive double reaches. -/
def leadingExponent (d : Binary64) : Int :=
  ((toString (d.numerator * Nat.pow 10 400 / d.denominator)).length : Int) - 401

/-- The better of the two neighbours with a last place of `10 ^ exponent`, if one reads back. -/
private def neighbour (d : Binary64) (exponent : Int) : Option Decimal :=
  let num := d.numerator * Nat.pow 10 (-exponent).toNat
  let den := d.denominator * Nat.pow 10 exponent.toNat
  let below := num / den
  let rest := num % den
  let lowFits := readsBack d below exponent
  let highFits := readsBack d (below + 1) exponent
  let preferHigh := den < 2 * rest || (den == 2 * rest && below % 2 == 1)
  if highFits && (preferHigh || !lowFits) then some ⟨below + 1, exponent⟩
  else if lowFits then some ⟨below, exponent⟩
  else none

/-- The first grid, from `places` digits on, that has a decimal reading back. -/
private def shortestFrom (d : Binary64) (leading : Int) (places : Nat) : Nat → Decimal
  | 0 => ⟨d.numerator / d.denominator, 0⟩
  | more + 1 =>
    match neighbour d (leading + 1 - places) with
    | some dec => dec
    | none => shortestFrom d leading (places + 1) more

/-- A decimal without zeros at its end. -/
private def trimZeros (digits : Nat) (exponent : Int) : Nat → Decimal
  | 0 => ⟨digits, exponent⟩
  | more + 1 =>
    if digits ≠ 0 ∧ digits % 10 = 0 then trimZeros (digits / 10) (exponent + 1) more
    else ⟨digits, exponent⟩

/-- The shortest decimal that reads back as a positive finite double. -/
def shortest (d : Binary64) : Decimal :=
  let dec := shortestFrom d d.leadingExponent 1 17
  trimZeros dec.digits dec.exponent 20

end Binary64

/-- How a decimal is laid out: the exponents that are written positionally. -/
structure DecimalLayout where
  least : Int
  greatest : Int

/-- `n` zeros. -/
def zeros (n : Nat) : String := String.ofList (List.replicate n '0')

/-- Digits with a point behind the first `n`. -/
private def pointed (digits : List Char) (n : Nat) : String :=
  String.ofList (digits.take n) ++ "." ++ String.ofList (digits.drop n)

/-- The text of a decimal: positional with at least one digit behind the point where the layout
says so, else one digit before the point and a signed exponent. -/
def DecimalLayout.render (layout : DecimalLayout) (dec : Decimal) : String :=
  let digits := (toString dec.digits).toList
  let leading := dec.exponent + digits.length - 1
  if layout.least ≤ leading ∧ leading ≤ layout.greatest then
    if leading < 0 then "0." ++ zeros (-leading - 1).toNat ++ String.ofList digits
    else if 0 ≤ dec.exponent then String.ofList digits ++ zeros dec.exponent.toNat ++ ".0"
    else pointed digits (leading + 1).toNat
  else
    (if digits.length = 1 then String.ofList digits else pointed digits 1)
      ++ (if leading < 0 then "e-" else "e+") ++ toString leading.natAbs

end Reconcile
