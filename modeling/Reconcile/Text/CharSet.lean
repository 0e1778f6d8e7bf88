import Reconcile.Text.Pieces

/-!
# Text/CharSet — sets of characters given by ranges of code points

A set is a list of closed ranges.  Long sets are written as text: ranges in hexadecimal, separated
by spaces and line breaks (`CharSet.ofHex`).
-/

namespace Reconcile

/-- A set of characters, as closed ranges of code points. -/
structure CharSet where
  ranges : List (Nat × Nat)

namespace CharSet

/-- A character belongs to a set when one of its ranges holds the code point. -/
def contains (s : CharSet) (c : Char) : Bool :=
  s.ranges.any fun r => r.1 ≤ c.toNat && c.toNat ≤ r.2

/-- The value of a hexadecimal digit; anything else counts nothing. -/
private def digitValue (c : Char) : Nat :=
  if c.isDigit then c.toNat - '0'.toNat
  else if 'A' ≤ c && c ≤ 'F' then c.toNat - 'A'.toNat + 10
  else 0

/-- The number a run of hexadecimal digits writes. -/
private def number (digits : List Char) : Nat :=
  digits.foldl (fun n c => 16 * n + digitValue c) 0

/-- The range a word such as `41-5A` or `AD` writes. -/
private def range (word : List Char) : Nat × Nat :=
  match pieces '-' word with
  | [a] => (number a, number a)
  | a :: b :: _ => (number a, number b)
  | [] => (1, 0)

/-- The words of a text. -/
private def words (text : String) : List (List Char) :=
  ((pieces '\n' text.toList).flatMap (pieces ' ')).filter (!·.isEmpty)

/-- The set whose ranges a text lists. -/
def ofHex (text : String) : CharSet := ⟨(words text).map range⟩

end CharSet

end Reconcile
