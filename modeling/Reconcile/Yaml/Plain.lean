import Reconcile.Json
import Reconcile.Text.Pieces

/-!
# Yaml/Plain — what a plain scalar means

A plain scalar is nothing, a truth value, an integer, a double or else a text.  Integers may be
written in base two, eight, ten or sixteen; digits that start with a zero are a text.
-/

namespace Reconcile.Yaml

/-- A text that stands for nothing, other than the empty one. -/
def isNullWord (s : String) : Bool := ["null", "Null", "NULL", "~"].contains s

/-- The truth value that a text writes. -/
def truthValue? (s : String) : Option Bool :=
  if ["true", "True", "TRUE"].contains s then some true
  else if ["false", "False", "FALSE"].contains s then some false
  else none

/-! ## Integers -/

/-- The value of a digit, in any base up to sixteen. -/
def digitValue (c : Char) : Nat :=
  if c.isDigit then c.toNat - '0'.toNat else c.toLower.toNat - 'a'.toNat + 10

/-- A digit of a base. -/
def isDigitOf (base : Nat) (c : Char) : Bool :=
  (c.isDigit || ('a' ≤ c.toLower && c.toLower ≤ 'f')) && digitValue c < base

/-- The number that digits of a base write; there has to be one. -/
def digitsNumber? (base : Nat) (digits : List Char) : Option Nat :=
  if digits.isEmpty || !digits.all (isDigitOf base) then none
  else some (digits.foldl (fun n c => base * n + digitValue c) 0)

/-- Takes a sign off a text. -/
def splitSign : List Char → Option Char × List Char
  | '+' :: rest => (some '+', rest)
  | '-' :: rest => (some '-', rest)
  | cs => (none, cs)

/-- Digits that start with a zero but are not zero itself, perhaps behind a sign. -/
def isZeroPadded (cs : List Char) : Bool :=
  match (splitSign cs).2 with
  | '0' :: d :: rest => (d :: rest).all Char.isDigit
  | _ => false

/-- The magnitude that a text without a sign writes. -/
def magnitude? (cs : List Char) : Option Nat :=
  match cs with
  | '0' :: 'x' :: rest => digitsNumber? 16 rest
  | '0' :: 'o' :: rest => digitsNumber? 8 rest
  | '0' :: 'b' :: rest => digitsNumber? 2 rest
  | _ => if isZeroPadded cs then none else digitsNumber? 10 cs

/-- The integer that a text writes. -/
def integer? (cs : List Char) : Option Int :=
  match splitSign cs with
  | (some '-', rest) => (magnitude? rest).map fun n => -(n : Int)
  | (_, rest) => (magnitude? rest).map Int.ofNat

/-- Integers of 128 bits, signed or not. -/
def fitsWide (n : Int) : Bool := -(Nat.pow 2 127) ≤ n && n < Nat.pow 2 128

/-! ## Doubles -/

/-- The parts of a decimal number: digits before and behind the point, and the exponent. -/
structure Decimal where
  whole : List Char
  fraction : List Char
  exponent : Int

/-- Reads an exponent, if there is one; nothing may follow. -/
def exponent? : List Char → Option Int
  | [] => some 0
  | e :: rest =>
    if e != 'e' && e != 'E' then none else
    match splitSign rest with
    | (some '-', digits) => (digitsNumber? 10 digits).map fun n => -(n : Int)
    | (_, digits) => (digitsNumber? 10 digits).map Int.ofNat

/-- Reads a decimal number without a sign.  There has to be a digit before or behind the point. -/
def decimal? (cs : List Char) : Option Decimal :=
  let (whole, rest) := cs.span Char.isDigit
  let (fraction, rest) := match rest with
    | '.' :: rest => rest.span Char.isDigit
    | _ => ([], rest)
  if whole.isEmpty && fraction.isEmpty then none
  else (exponent? rest).map fun e => ⟨whole, fraction, e⟩

/-- The double nearest to a decimal number.  Beyond a thousand places the answer is zero or infinite
whatever the digits are. -/
def Decimal.toDouble (d : Decimal) (negative : Bool) : Binary64 :=
  let digits := (d.whole ++ d.fraction).dropWhile (· == '0')
  let power := d.exponent - d.fraction.length
  let places := power + digits.length
  let value := (digitsNumber? 10 digits).getD 0
  if value = 0 || places < -1000 then .ofMagnitudeBits negative 0
  else if 1000 < places then .ofMagnitudeBits negative (2047 * Nat.pow 2 52)
  else .ofDecimal negative value power

/-- The finite double that a text writes. -/
def double? (cs : List Char) : Option Binary64 := do
  let (sign, rest) := splitSign cs
  let d := (← decimal? rest).toDouble (sign == some '-')
  if d.isFinite then some d else none

/-- A text that stands for a number without digits: infinite, or none at all. -/
def isSpecialNumber (s : String) : Bool :=
  [".inf", ".Inf", ".INF", "+.inf", "+.Inf", "+.INF", "-.inf", "-.Inf", "-.INF",
    ".nan", ".NaN", ".NAN"].contains s

/-! ## The meaning -/

/-- The meaning of a plain scalar.  Numbers that are not finite are nothing, and an integer of more
than 64 bits has a meaning only if it has more than 128, as a double. -/
def plainMeaning? (s : String) : Option Json :=
  let cs := s.toList
  if s.isEmpty || isNullWord s then some .null
  else
    match truthValue? s, integer? cs with
    | some b, _ => some (.bool b)
    | none, some n =>
      if Number.fits n then some (.number (.int n))
      else if fitsWide n then none
      else largeMeaning cs
    | none, none => largeMeaning cs
where
  /-- The meaning of a text that is no integer of 128 bits. -/
  largeMeaning (cs : List Char) : Option Json :=
    if isZeroPadded cs then some (.string (String.ofList cs))
    else if isSpecialNumber (String.ofList cs) then some .null
    else
      match double? cs with
      | some d => some (.number (.double d))
      | none => some (.string (String.ofList cs))

end Reconcile.Yaml
