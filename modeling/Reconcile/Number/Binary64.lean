/-!
# Number/Binary64 — doubles as words, with exact rounding

A double is its word of 64 bits: sign, eleven bits of exponent, fifty-two of fraction.  Its
magnitude is the fraction `numerator / denominator`; `ofRatio` rounds any fraction to the nearest
double, a tie to the even significand, so products and quotients are rounded once.
-/

namespace Reconcile

/-- A double, as its word. -/
structure Binary64 where
  bits : UInt64
deriving DecidableEq, Inhabited

namespace Binary64

/-- The sign bit is set. -/
def isNegative (d : Binary64) : Bool := d.bits.toNat ≥ Nat.pow 2 63

/-- The bits behind the sign, as a number. -/
def magnitudeBits (d : Binary64) : Nat := d.bits.toNat % Nat.pow 2 63

/-- The exponent field. -/
def exponentField (d : Binary64) : Nat := d.magnitudeBits / Nat.pow 2 52

/-- Neither infinite nor no number. -/
def isFinite (d : Binary64) : Bool := d.exponentField < 2047

/-- One of the two zeros. -/
def isZero (d : Binary64) : Bool := d.magnitudeBits == 0

/-- The integer significand: the magnitude is `significand * 2 ^ (power - 1074)`. -/
def significand (d : Binary64) : Nat :=
  if d.exponentField = 0 then d.magnitudeBits else Nat.pow 2 52 + d.magnitudeBits % Nat.pow 2 52

/-- The power of two of the last place, counted from the least one. -/
def power (d : Binary64) : Nat := d.exponentField - 1

/-- The magnitude as a fraction: numerator. -/
def numerator (d : Binary64) : Nat := d.significand * Nat.pow 2 (d.power - 1074)

/-- The magnitude as a fraction: denominator. -/
def denominator (d : Binary64) : Nat := Nat.pow 2 (1074 - d.power)

/-- Numeric equality: the two zeros are equal. -/
def equal (d e : Binary64) : Bool := d == e || (d.isZero && e.isZero)

/-- The word with a sign and a magnitude; magnitudes past the largest one are infinite. -/
def ofMagnitudeBits (negative : Bool) (magnitude : Nat) : Binary64 :=
  ⟨UInt64.ofNat ((if negative then Nat.pow 2 63 else 0) + min magnitude (2047 * Nat.pow 2 52))⟩

/-- The integer nearest to a quotient, a tie to the even one. -/
def nearest (num den : Nat) : Nat :=
  let q := num / den
  let r := num % den
  if 2 * r < den then q
  else if den < 2 * r then q + 1
  else if q % 2 = 0 then q else q + 1

/-- `num / den` in units of `2 ^ (power - 1074)`, as a fraction. -/
def inUnits (num den power : Nat) : Nat × Nat :=
  (num * Nat.pow 2 (1074 - power), den * Nat.pow 2 (power - 1074))

/-- The double nearest to a fraction, a tie to the even significand. -/
def ofRatio (negative : Bool) (num den : Nat) : Binary64 :=
  if num = 0 then ofMagnitudeBits negative 0 else
  let start := num.log2 + 1074 - 53 - den.log2
  let first := inUnits num den start
  let power := if first.1 / first.2 < Nat.pow 2 53 then start else start + 1
  let unit := inUnits num den power
  ofMagnitudeBits negative (power * Nat.pow 2 52 + nearest unit.1 unit.2)

/-- The double nearest to a natural number. -/
def ofNat (n : Nat) : Binary64 := ofRatio false n 1

/-- The double with the opposite sign. -/
def neg (d : Binary64) : Binary64 := ofMagnitudeBits (!d.isNegative) d.magnitudeBits

/-- The product of two finite doubles, rounded. -/
def mul (d e : Binary64) : Binary64 :=
  ofRatio (d.isNegative != e.isNegative) (d.numerator * e.numerator) (d.denominator * e.denominator)

/-- The quotient of two finite doubles, the second not zero, rounded. -/
def div (d e : Binary64) : Binary64 :=
  ofRatio (d.isNegative != e.isNegative) (d.numerator * e.denominator) (d.denominator * e.numerator)

/-- The double nearest to `digits * 10 ^ exponent`. -/
def ofDecimal (negative : Bool) (digits : Nat) (exponent : Int) : Binary64 :=
  ofRatio negative (digits * Nat.pow 10 exponent.toNat) (Nat.pow 10 (-exponent).toNat)

end Binary64

end Reconcile
