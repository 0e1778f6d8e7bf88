/-!
# Text/Pieces — cutting a text at a character

`pieces` cuts at every separator and gives at least one piece (`pieces_ne_nil`); `splitFirst` cuts
at the first one.
-/

namespace Reconcile

/-- Cuts a list of characters at every separator; there is always at least one piece. -/
def pieces (sep : Char) : List Char → List (List Char)
  | [] => [[]]
  | c :: rest =>
    if c = sep then [] :: pieces sep rest
    else
      match pieces sep rest with
      | [] => [[c]]
      | w :: ws => (c :: w) :: ws

/-- Cuts a list of characters at its first separator: none if it has none. -/
def splitFirst (sep : Char) : List Char → Option (List Char × List Char)
  | [] => none
  | c :: rest =>
    if c = sep then some ([], rest)
    else (splitFirst sep rest).map fun r => (c :: r.1, r.2)

theorem pieces_ne_nil (sep : Char) (cs : List Char) : pieces sep cs ≠ [] := by
  cases cs with
  | nil => simp [pieces]
  | cons c rest =>
    unfold pieces
    split
    · simp
    · split <;> simp

/-- The pieces between separators, as texts. -/
def textPieces (sep : Char) (s : String) : List String :=
  (pieces sep s.toList).map String.ofList

/-- The two parts around the first separator of a text. -/
def splitTextFirst (sep : Char) (s : String) : Option (String × String) :=
  (splitFirst sep s.toList).map fun r => (String.ofList r.1, String.ofList r.2)

/-- What follows a start of a text, if it starts so. -/
def dropStart? (start cs : List Char) : Option (List Char) :=
  if start.isPrefixOf cs then some (cs.drop start.length) else none

/-- The text with every ASCII capital made small. -/
def lowerAscii (s : String) : String := String.ofList (s.toList.map Char.toLower)

/-- Equality that does not tell ASCII capitals from small letters. -/
def equalIgnoringCase (s t : String) : Bool := lowerAscii s == lowerAscii t

/-- A number with zeros in front up to a width. -/
def padded (width n : Nat) : String :=
  let digits := (toString n).toList
  String.ofList (List.replicate (width - digits.length) '0' ++ digits)

end Reconcile
