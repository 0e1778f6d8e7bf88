import Reconcile.Yaml.Cursor

/-!
# Yaml/Scalar — the texts of scalars

A scalar is written plain, between quotes, or as a block below a `|` or a `>`.  Except in `|` blocks
line breaks are folded: a single one counts as a space, and of several the first is dropped.
-/

namespace Reconcile.Yaml

/-! ## Gaps between words -/

/-- What stands between two words: spaces in a line, or line breaks, of which the first and the
others are told apart. -/
structure Gap where
  spaces : List Char := []
  broken : Bool := false
  first : List Char := []
  more : List Char := []
deriving Inhabited

namespace Gap

/-- The text that a gap counts as. -/
def text (g : Gap) : List Char :=
  if !g.broken then g.spaces
  else if g.first != ['\n'] then g.first ++ g.more
  else if g.more.isEmpty then [' ']
  else g.more

/-- The gap with one more space or tab; behind a line break they do not count. -/
def addSpace (g : Gap) (d : Char) : Gap :=
  if g.broken then g else { g with spaces := g.spaces ++ [d] }

/-- The gap with one more line break. -/
def addBreak (g : Gap) (b : Char) : Gap :=
  if g.broken then { g with more := g.more ++ [b] } else ⟨[], true, [b], g.more⟩

/-- Reads a gap as far as it goes.  Behind a line break no tab may stand before a given column. -/
def read (column : Nat) (g : Gap) (c : Cursor) : Option (Gap × Cursor) :=
  match h : c.break? with
  | some (b, d) =>
    have : d.rest.length < c.rest.length := Cursor.length_rest_of_break? h
    read column (g.addBreak b) d
  | none =>
    match hc : c.rest with
    | d :: rest =>
      if !isGap d then some (g, c)
      else if g.broken && c.column < column && d == '\t' then none
      else
        have : c.next.rest.length < c.rest.length := by
          simp [Cursor.next, Cursor.skip, hc]
        read column (g.addSpace d) c.next
    | [] => some (g, c)
termination_by c.rest.length

end Gap

/-! ## Quoted scalars -/

/-- The value of a hexadecimal digit. -/
def hexValue? (c : Char) : Option Nat :=
  if c.isDigit then some (c.toNat - '0'.toNat)
  else if 'a' ≤ c && c ≤ 'f' then some (c.toNat - 'a'.toNat + 10)
  else if 'A' ≤ c && c ≤ 'F' then some (c.toNat - 'A'.toNat + 10)
  else none

/-- The character with a code point. -/
def charOf? (n : Nat) : Option Char := if n.isValidChar then some (Char.ofNat n) else none

/-- The character whose code point some hexadecimal digits write. -/
def codePoint? (digits : Nat) (c : Cursor) : Option (Char × Cursor) := do
  let text := c.rest.take digits
  if text.length < digits then none else
  let values ← text.mapM hexValue?
  let d ← charOf? (values.foldl (fun n v => 16 * n + v) 0)
  return (d, c.skip digits)

/-- The characters that a backslash and one character stand for. -/
def simpleEscapes : List (Char × Char) := [
  ('0', '\x00'), ('a', '\x07'), ('b', '\x08'), ('t', '\t'), ('\t', '\t'), ('n', '\n'),
  ('v', '\x0b'), ('f', '\x0c'), ('r', '\r'), ('e', '\x1b'), (' ', ' '), ('"', '"'), ('/', '/'),
  ('\\', '\\'),
  ('N', '\u0085'), ('_', '\u00a0'), ('L', '\u2028'), ('P', '\u2029')]

/-- Reads what stands behind a backslash. -/
def escape? (c : Cursor) : Option (Char × Cursor) :=
  match c.head? with
  | some 'x' => codePoint? 2 c.next
  | some 'u' => codePoint? 4 c.next
  | some 'U' => codePoint? 8 c.next
  | some d => (simpleEscapes.lookup d).map fun e => (e, c.next)
  | none => none

/-- The two quotes. -/
inductive Quote where
  | single
  | double
deriving DecidableEq

/-- The character of a quote. -/
def Quote.char : Quote → Char
  | .single => '\''
  | .double => '"'

/-- Text that stands before what is read next. -/
def prepend (text : List Char) (r : Option (List Char × Cursor)) : Option (List Char × Cursor) :=
  r.map fun e => (text ++ e.1, e.2)

/-- Reads a quoted scalar behind its first quote.  Only double quotes know escapes; between single
ones a quote is written twice. -/
def readQuoted (q : Quote) : Nat → Cursor → Option (List Char × Cursor)
  | 0, _ => none
  | fuel + 1, c =>
    let behind (g : Gap) (c : Cursor) := do
      let (g, d) ← g.read 0 c
      prepend g.text (readQuoted q fuel d)
    if c.atDocumentMark then none else
    match c.head? with
    | none => none
    | some d =>
      if d == q.char then
        if q = .single && c.peek? 1 == some q.char then prepend [d] (readQuoted q fuel (c.skip 2))
        else some ([], c.next)
      else if q = .double && d == '\\' then
        match c.next.break? with
        | some (_, e) => behind { broken := true } e
        | none => (escape? c.next).bind fun (d, e) => prepend [d] (readQuoted q fuel e)
      else if isGap d || isBreak d then behind {} c
      else prepend [d] (readQuoted q fuel c.next)

/-! ## Plain scalars -/

/-- Characters that end a word between brackets. -/
def isFlowMark (c : Char) : Bool := c == ',' || c == '[' || c == ']' || c == '\x7b' || c == '\x7d'

/-- Reads a word of a plain scalar.  Between brackets a colon may not stand right before a mark. -/
def readWord (flow : Bool) : Nat → Cursor → Option (List Char × Cursor)
  | 0, _ => none
  | fuel + 1, c =>
    match c.head? with
    | none => some ([], c)
    | some d =>
      if isGap d || isBreak d then some ([], c)
      else if flow && d == ':' && (c.peek? 1).any (fun e => isFlowMark e || e == '?') then none
      else if d == ':' && c.endsWordAt 1 then some ([], c)
      else if flow && isFlowMark d then some ([], c)
      else prepend [d] (readWord flow fuel c.next)

/-- Reads a plain scalar, in which words are separated by gaps; outside of brackets it ends before a
line that does not reach a given column.  The flag tells that a line break was passed at the end. -/
def readPlain (flow : Bool) (column : Nat) :
    Nat → Gap → Cursor → Option (List Char × Bool × Cursor)
  | 0, _, _ => none
  | fuel + 1, g, c =>
    if c.atDocumentMark || c.holds '#' then some ([], g.broken, c) else do
    let (word, d) ← readWord flow (c.rest.length + 1) c
    if word.isEmpty then return ([], g.broken, d)
    let text := g.text ++ word
    if !d.endsWordAt 0 || d.rest.isEmpty then return (text, false, d)
    let (h, e) ← Gap.read column {} d
    if !flow && e.column < column then return (text, h.broken, e)
    let (more, broken, f) ← readPlain flow column fuel h e
    return (text ++ more, broken, f)

/-! ## Block scalars -/

/-- What becomes of the line breaks at the end of a block. -/
inductive Chomping where
  | strip
  | clip
  | keep
deriving DecidableEq

/-- The head of a block scalar: what becomes of the end, and the indentation if it is given. -/
structure BlockHead where
  chomping : Chomping := .clip
  indent : Option Nat := none

/-- The mark for what becomes of the end. -/
def chomping? : Char → Option Chomping
  | '-' => some .strip
  | '+' => some .keep
  | _ => none

/-- Reads a mark for the end. -/
def readChomping (c : Cursor) : Chomping × Cursor :=
  match c.head?.bind chomping? with
  | some m => (m, c.next)
  | none => (.clip, c)

/-- Reads a digit for the indentation, which may not be zero. -/
def readIndent (c : Cursor) : Option (Option Nat × Cursor) :=
  match c.head? with
  | some d =>
    if d == '0' then none
    else if d.isDigit then some (some (d.toNat - '0'.toNat), c.next)
    else some (none, c)
  | none => some (none, c)

/-- Reads both marks, in either order. -/
def readBlockMarks (c : Cursor) : Option (BlockHead × Cursor) :=
  match c.head?.bind chomping? with
  | some m => (readIndent c.next).map fun (n, d) => (⟨m, n⟩, d)
  | none => (readIndent c).map fun (n, d) =>
    match n with
    | some _ =>
      let (m, e) := readChomping d
      (⟨m, n⟩, e)
    | none => ({}, d)

/-- Reads the head of a block scalar and the rest of its line, in which a comment may stand. -/
def readBlockHead (c : Cursor) : Option (BlockHead × Cursor) := do
  let (head, d) ← readBlockMarks c
  let d := d.skipGaps
  let d := if d.holds '#' then d.lineRest.2 else d
  if !d.atLineEnd then none else
  return (head, ((d.break?).map (·.2)).getD d)

/-- Reads empty lines: their breaks, and the deepest column that was reached.  No tab may stand
where indentation is expected. -/
def readEmptyLines (indent : Option Nat) (breaks : List Char) (deepest : Nat) :
    Nat → Cursor → Option (List Char × Nat × Cursor)
  | 0, _ => none
  | fuel + 1, c =>
    let c := c.skipSpaces (match indent with
      | some n => n - c.column
      | none => c.rest.length)
    let deepest := max deepest c.column
    if (indent.all fun n => c.column < n) && c.holds '\t' then none else
    match c.break? with
    | some (b, d) => readEmptyLines indent (breaks ++ [b]) deepest fuel d
    | none => some (breaks, deepest, c)

/-- How a block goes on behind a line: the break of the line, the empty lines behind it, and whether
the line started with a gap. -/
structure BlockLine where
  lineBreak : List Char := []
  emptyLines : List Char := []
  startsWithGap : Bool := false

/-- What joins the next line to a line.  Folding replaces a single break by a space, except next to
lines that start with a gap. -/
def BlockLine.joint (literal : Bool) (b : BlockLine) (gap : Bool) : List Char :=
  if !literal && b.lineBreak == ['\n'] && !b.startsWithGap && !gap then
    if b.emptyLines.isEmpty then [' '] else b.emptyLines
  else b.lineBreak ++ b.emptyLines

/-- What is left of the end of the last line. -/
def BlockLine.ending (b : BlockLine) : Chomping → List Char
  | .strip => []
  | .clip => b.lineBreak
  | .keep => b.lineBreak ++ b.emptyLines

/-- Reads the lines of a block with a known indentation, behind a line. -/
def readBlockLines (literal : Bool) (chomping : Chomping) (indent : Nat) :
    Nat → BlockLine → Cursor → Option (List Char × Cursor)
  | 0, _, _ => none
  | fuel + 1, b, c =>
    if c.column != indent || c.rest.isEmpty then some (b.ending chomping, c) else do
    let gap := c.head?.any isGap
    let (line, d) := c.lineRest
    let (lineBreak, e) := match d.break? with
      | some (x, e) => ([x], e)
      | none => ([], d)
    let (emptyLines, _, f) ← readEmptyLines (some indent) [] 0 (e.rest.length + 1) e
    prepend (b.joint literal gap ++ line)
      (readBlockLines literal chomping indent fuel ⟨lineBreak, emptyLines, gap⟩ f)

/-- Reads a block scalar behind its indicator, inside a block that starts at a column. -/
def readBlock (literal : Bool) (outer : Int) (c : Cursor) : Option (List Char × Cursor) := do
  let (head, c) ← readBlockHead c
  let given := head.indent.map fun n => (max outer 0).toNat + n
  let (emptyLines, deepest, d) ← readEmptyLines given [] 0 (c.rest.length + 1) c
  let indent := given.getD (max (max deepest (outer + 1).toNat) 1)
  readBlockLines literal head.chomping indent (d.rest.length + 1) { emptyLines := emptyLines } d

end Reconcile.Yaml
