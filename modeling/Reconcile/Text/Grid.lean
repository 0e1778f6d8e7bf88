import Reconcile.Text.Columns
import Reconcile.Text.Pieces

/-!
# Text/Grid — tables drawn with plus, minus and bar

Every column is as wide as its widest line, with a blank on either side; every row is closed by a
rule.  A cell with line breaks makes its row higher.
-/

namespace Reconcile

/-- The lines of a cell. -/
def cellLines (cell : String) : List String := textPieces '\n' cell

/-- The columns that a cell needs. -/
def cellColumns (cell : String) : Nat := ((cellLines cell).map columns).foldl max 0

/-- A text repeated. -/
def repeated (n : Nat) (c : Char) : String := String.ofList (List.replicate n c)

/-- A text with blanks behind it up to a number of columns. -/
def filled (width : Nat) (s : String) : String := s ++ repeated (width - columns s) ' '

/-- The rule between two rows. -/
def gridRule (widths : List Nat) : String :=
  "+" ++ String.join (widths.map fun w => repeated (w + 2) '-' ++ "+")

/-- One line of a row. -/
def gridLine (widths : List Nat) (parts : List String) : String :=
  "|" ++ String.join ((widths.zip parts).map fun e => " " ++ filled e.1 e.2 ++ " |")

/-- The lines of a row of cells. -/
def gridRow (widths : List Nat) (cells : List String) : List String :=
  let lines := cells.map cellLines
  let height := (lines.map List.length).foldl max 0
  (List.range height).map fun i => gridLine widths (lines.map fun l => l.getD i "")

/-- The widths of the columns of rows with the same number of cells. -/
def gridWidths (rows : List (List String)) : List Nat :=
  match rows with
  | [] => []
  | first :: rest =>
    rest.foldl (fun widths row => List.zipWith max widths (row.map cellColumns))
      (first.map cellColumns)

/-- The table with the given rows, the first of which is the head. -/
def grid (rows : List (List String)) : String :=
  let widths := gridWidths rows
  let rule := gridRule widths
  String.intercalate "\n" (rule :: rows.flatMap fun row => gridRow widths row ++ [rule])

end Reconcile
