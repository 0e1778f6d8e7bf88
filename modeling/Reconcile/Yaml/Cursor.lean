/-!
# Yaml/Cursor — places in a YAML text

A cursor is the rest of a text together with the line and the column that have been reached, and
with the number of bytes in front of it.  Five characters break a line; spaces and tabs stand inside
one.
-/

namespace Reconcile.Yaml

/-- A space or a tab. -/
def isGap (c : Char) : Bool := c == ' ' || c == '\t'

/-- A character that breaks a line. -/
def isBreak (c : Char) : Bool :=
  c == '\n' || c == '\r' || c == '\u0085' || c == '\u2028' || c == '\u2029'

/-- A character that may occur in a document at all. -/
def isPermitted (c : Char) : Bool :=
  let n := c.toNat
  n == 0x9 || n == 0xA || n == 0xD || (0x20 ≤ n && n ≤ 0x7E) || n == 0x85
    || (0xA0 ≤ n && n ≤ 0xFFFD) || 0x10000 ≤ n

/-- A place in a text; `index` counts bytes, `column` characters. -/
structure Cursor where
  rest : List Char
  index : Nat := 0
  line : Nat := 0
  column : Nat := 0
deriving Inhabited

namespace Cursor

/-- The character at a place. -/
def head? (c : Cursor) : Option Char := c.rest.head?

/-- The character some places further. -/
def peek? (c : Cursor) (n : Nat) : Option Char := c.rest[n]?

/-- The index behind some characters. -/
def indexAfter (c : Cursor) (n : Nat) : Nat :=
  (c.rest.take n).foldl (fun bytes d => bytes + d.utf8Size) c.index

/-- A place further in the same line. -/
def skip (c : Cursor) (n : Nat) : Cursor :=
  { c with rest := c.rest.drop n, index := c.indexAfter n, column := c.column + n }

/-- The next place in the same line. -/
def next (c : Cursor) : Cursor := c.skip 1

/-- The start of the next line, behind a break of some characters. -/
def newLine (c : Cursor) (n : Nat) : Cursor :=
  ⟨c.rest.drop n, c.indexAfter n, c.line + 1, 0⟩

/-- Reads a line break.  It counts as a line feed, except for the two separators of Unicode, which
stand for themselves. -/
def break? (c : Cursor) : Option (Char × Cursor) :=
  match c.rest with
  | '\r' :: '\n' :: _ => some ('\n', c.newLine 2)
  | b :: _ =>
    if b == '\u2028' || b == '\u2029' then some (b, c.newLine 1)
    else if isBreak b then some ('\n', c.newLine 1)
    else none
  | [] => none

/-- A place some characters further holds a space, a tab or a break, or is behind the text. -/
def endsWordAt (c : Cursor) (n : Nat) : Bool := (c.peek? n).all fun d => isGap d || isBreak d

/-- The line ends here. -/
def atLineEnd (c : Cursor) : Bool := c.head?.all isBreak

/-- A place holds a character. -/
def holds (c : Cursor) (d : Char) : Bool := c.head? == some d

/-- A line starts here with three given characters that stand alone. -/
def atMark (c : Cursor) (d : Char) : Bool :=
  c.column == 0 && c.rest.take 3 == [d, d, d] && c.endsWordAt 3

/-- A line starts here that begins or ends a document. -/
def atDocumentMark (c : Cursor) : Bool := c.atMark '-' || c.atMark '.'

/-- The rest of the line, and the place behind it. -/
def lineRest (c : Cursor) : List Char × Cursor :=
  let text := c.rest.takeWhile fun d => !isBreak d
  (text, c.skip text.length)

/-- The place behind a byte order mark that starts a line. -/
def skipOrderMark (c : Cursor) : Cursor :=
  if c.column == 0 && c.holds '\ufeff' then c.skip 1 else c

/-- The place behind spaces, at most so many. -/
def skipSpaces (c : Cursor) (most : Nat) : Cursor :=
  c.skip ((c.rest.take most).takeWhile (· == ' ')).length

/-- The place behind spaces and tabs. -/
def skipGaps (c : Cursor) : Cursor := c.skip (c.rest.takeWhile isGap).length

/-- A new line leaves less of a text that has something to drop. -/
theorem length_rest_newLine {c : Cursor} {n : Nat} (hn : 0 < n) (hc : 0 < c.rest.length) :
    (c.newLine n).rest.length < c.rest.length := by
  have h : (c.newLine n).rest.length = c.rest.length - n := List.length_drop
  omega

/-- **What is left behind a line break is shorter.** -/
theorem length_rest_of_break? {c d : Cursor} {b : Char} (h : c.break? = some (b, d)) :
    d.rest.length < c.rest.length := by
  unfold break? at h
  split at h
  · next heq =>
    cases h
    exact length_rest_newLine (by decide) (by rw [heq]; exact Nat.succ_pos _)
  · next heq =>
    have hc : 0 < c.rest.length := by rw [heq]; exact Nat.succ_pos _
    split at h
    · cases h
      exact length_rest_newLine (by decide) hc
    · split at h
      · cases h
        exact length_rest_newLine (by decide) hc
      · cases h
  · cases h

end Cursor

end Reconcile.Yaml
