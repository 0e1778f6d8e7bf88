import Reconcile.Json.Draft

/-!
# Json/Reader — trees from text

`Draft.read?` accepts one value with blanks around it.  `Json.read?` asks for its meaning, which has
at most 127 arrays and objects inside one another, and `Json.decodeText?` for the part of it that a
decoder looks at.
-/

namespace Reconcile.Json

/-- What a reader of a part of a text gives: the part and the rest. -/
abbrev Step (α : Type) := Option (α × List Char)

/-- Drops the blanks that may stand between tokens. -/
def skipBlanks : List Char → List Char :=
  List.dropWhile fun c => c == ' ' || c == '\n' || c == '\t' || c == '\r'

/-- The decimal digits at the front of a text, and the rest. -/
def spanDigits (cs : List Char) : List Char × List Char := cs.span Char.isDigit

/-! ## Numbers -/

/-- Reads the fraction behind the whole part of a number: none if there is no point. -/
def readFraction : List Char → Step (Option (List Char))
  | '.' :: rest =>
    let (digits, rest) := spanDigits rest
    if digits.isEmpty then none else some (some digits, rest)
  | rest => some (none, rest)

/-- Reads the exponent of a number: none if there is no mark. -/
def readExponent (cs : List Char) : Step (Option (Bool × List Char)) :=
  let signed (rest : List Char) : Step (Option (Bool × List Char)) :=
    let (negative, rest) := match rest with
      | '+' :: r => (false, r)
      | '-' :: r => (true, r)
      | r => (false, r)
    let (digits, rest) := spanDigits rest
    if digits.isEmpty then none else some (some (negative, digits), rest)
  match cs with
  | 'e' :: rest => signed rest
  | 'E' :: rest => signed rest
  | rest => some (none, rest)

/-- The whole part of a number: digits without a superfluous zero in front. -/
def wholeDigits? (digits : List Char) : Option (List Char) :=
  match digits with
  | [] => none
  | '0' :: _ :: _ => none
  | _ => some digits

/-- Reads a number. -/
def readNumeral (cs : List Char) : Option (Numeral × List Char) := do
  let (negative, cs) := match cs with
    | '-' :: rest => (true, rest)
    | rest => (false, rest)
  let (digits, cs) := spanDigits cs
  let whole ← wholeDigits? digits
  let (fraction, cs) ← readFraction cs
  let (exponent, cs) ← readExponent cs
  return (⟨negative, whole, fraction, exponent⟩, cs)

/-! ## Strings -/

/-- The value of a hexadecimal digit. -/
def hexValue? (c : Char) : Option Nat :=
  if '0' ≤ c && c ≤ '9' then some (c.toNat - '0'.toNat)
  else if 'a' ≤ c && c ≤ 'f' then some (c.toNat - 'a'.toNat + 10)
  else if 'A' ≤ c && c ≤ 'F' then some (c.toNat - 'A'.toNat + 10)
  else none

/-- The number that four hexadecimal digits write. -/
def fourHexValue? (a b c d : Char) : Option Nat := do
  return 4096 * (← hexValue? a) + 256 * (← hexValue? b) + 16 * (← hexValue? c) + (← hexValue? d)

/-- The character behind a backslash that is not `u`. -/
def simpleEscape? : Char → Option Char
  | '"' => some '"'
  | '\\' => some '\\'
  | '/' => some '/'
  | 'b' => some '\x08'
  | 'f' => some '\x0c'
  | 'n' => some '\n'
  | 'r' => some '\r'
  | 't' => some '\t'
  | _ => none

/-- Reads a string behind its opening quote, up to its closing one. -/
def readPieces : List Char → Step (List Piece)
  | [] => none
  | '"' :: rest => some ([], rest)
  | '\\' :: 'u' :: a :: b :: c :: d :: rest =>
    match fourHexValue? a b c d with
    | some n => (readPieces rest).map fun r => (.unit n :: r.1, r.2)
    | none => none
  | '\\' :: c :: rest =>
    match simpleEscape? c with
    | some e => (readPieces rest).map fun r => (.char e :: r.1, r.2)
    | none => none
  | c :: rest =>
    if c.toNat < 0x20 || c == '\\' then none
    else (readPieces rest).map fun r => (.char c :: r.1, r.2)

/-! ## Values -/

/-- Reads a fixed word. -/
def readWord (word : List Char) (value : Draft) (cs : List Char) : Step Draft :=
  if word.isPrefixOf cs then some (value, cs.drop word.length) else none

mutual

/-- Reads a value.  Every step takes a character, so `fuel` as large as the text is enough. -/
def readValue : Nat → List Char → Step Draft
  | 0, _ => none
  | fuel + 1, cs =>
    match skipBlanks cs with
    | '"' :: rest => (readPieces rest).map fun r => (.string r.1, r.2)
    | '[' :: rest =>
      match skipBlanks rest with
      | ']' :: rest => some (.array [], rest)
      | rest => (readItems fuel rest).map fun r => (.array r.1, r.2)
    | '\x7b' :: rest =>
      match skipBlanks rest with
      | '\x7d' :: rest => some (.object [], rest)
      | rest => (readMembers fuel rest).map fun r => (.object r.1, r.2)
    | 'n' :: rest => readWord ['u', 'l', 'l'] .null rest
    | 't' :: rest => readWord ['r', 'u', 'e'] (.bool true) rest
    | 'f' :: rest => readWord ['a', 'l', 's', 'e'] (.bool false) rest
    | rest => (readNumeral rest).map fun r => (.number r.1, r.2)

/-- Reads the items of an array up to the closing bracket. -/
def readItems : Nat → List Char → Step (List Draft)
  | 0, _ => none
  | fuel + 1, cs =>
    match readValue fuel cs with
    | none => none
    | some (item, rest) =>
      match skipBlanks rest with
      | ',' :: rest => (readItems fuel rest).map fun r => (item :: r.1, r.2)
      | ']' :: rest => some ([item], rest)
      | _ => none

/-- Reads the members of an object up to the closing brace. -/
def readMembers : Nat → List Char → Step (List (List Piece × Draft))
  | 0, _ => none
  | fuel + 1, cs =>
    match skipBlanks cs with
    | '"' :: rest =>
      match readPieces rest with
      | none => none
      | some (key, rest) =>
        match skipBlanks rest with
        | ':' :: rest =>
          match readValue fuel rest with
          | none => none
          | some (value, rest) =>
            match skipBlanks rest with
            | ',' :: rest => (readMembers fuel rest).map fun r => ((key, value) :: r.1, r.2)
            | '\x7d' :: rest => some ([(key, value)], rest)
            | _ => none
        | _ => none
    | _ => none

end

/-- Reads a text that holds one value and nothing else but blanks. -/
def Draft.read? (text : String) : Option Draft :=
  let cs := text.toList
  match readValue (2 * cs.length + 2) cs with
  | some (value, rest) => if (skipBlanks rest).isEmpty then some value else none
  | none => none

/-- The number of arrays and objects that may be nested. -/
def maxDepth : Nat := 127

/-- The tree in a text. -/
def read? (text : String) : Option Json := (Draft.read? text).bind (Draft.json? maxDepth)

/-- The typed document in a text. -/
def decodeText? {α : Type} (decode : Nested Draft → Option α) (text : String) : Option α :=
  (Draft.read? text).bind fun d => decode ⟨d, maxDepth⟩

end Reconcile.Json
