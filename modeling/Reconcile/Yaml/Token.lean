import Reconcile.Yaml.Scalar

/-!
# Yaml/Token — the marks and scalars of a YAML text

Indentation becomes marks of its own: `Token.ofText?` tells where blocks start and end.  Whatever
may turn out to be the key of a map is remembered, and its marks are put in front of it when the
colon is met; a key has to stand in one line and within 1024 bytes.

Anchors, tags and directives are not read.
-/

namespace Reconcile.Yaml

/-- A mark or a scalar. -/
inductive Token where
  | documentStart
  | documentEnd
  | blockList
  | blockMap
  | blockEnd
  | flowList
  | flowListEnd
  | flowMap
  | flowMapEnd
  | entry
  | comma
  | key
  | value
  | scalar (text : String) (plain : Bool)
deriving DecidableEq, Inhabited

/-- What may turn out to be a key: the number of tokens before it, where it stands, and whether
nothing else can stand there. -/
structure KeyStart where
  tokens : Nat
  index : Nat
  line : Nat
  column : Nat
  required : Bool

/-- The greatest length of a key, in bytes. -/
def maxKeyLength : Nat := 1024

/-- The state in which a text is read.  `tokens` are those read so far, the last one first.  The
column of the innermost block is `-1` outside of all blocks.  For every open bracket, and for the
text outside of them, there may be one possible key. -/
structure Reading where
  place : Cursor
  tokens : List Token := []
  column : Int := -1
  outerColumns : List Int := []
  keyStart : Option KeyStart := none
  outerKeyStarts : List (Option KeyStart) := []
  keyAllowed : Bool := true

namespace Reading

/-- The place is between brackets. -/
def inFlow (r : Reading) : Bool := !r.outerKeyStarts.isEmpty

/-- Adds a token. -/
def push (r : Reading) (t : Token) : Reading := { r with tokens := t :: r.tokens }

/-- Adds a token that some characters write. -/
def pushOver (r : Reading) (t : Token) (length : Nat) : Reading :=
  { r.push t with place := r.place.skip length }

/-- Adds a token behind the first ones. -/
def insertAfter (r : Reading) (count : Nat) (t : Token) : Reading :=
  let later := r.tokens.length - count
  { r with tokens := r.tokens.take later ++ t :: r.tokens.drop later }

/-- Allows a key to start at the place, or not. -/
def allowKey (r : Reading) (allowed : Bool) : Reading := { r with keyAllowed := allowed }

/-! ## Possible keys -/

/-- Gives up the possible key, unless nothing else can stand there. -/
def dropKey (r : Reading) : Option Reading :=
  if r.keyStart.any (·.required) then none else some { r with keyStart := none }

/-- Remembers that a key may start at the place. -/
def rememberKey (r : Reading) : Option Reading :=
  if !r.keyAllowed then some r else do
  let c := r.place
  let required := !r.inFlow && r.column == c.column
  let r ← r.dropKey
  return { r with keyStart := some ⟨r.tokens.length, c.index, c.line, c.column, required⟩ }

/-- A possible key is too far behind. -/
def isStale (r : Reading) (k : KeyStart) : Bool :=
  k.line < r.place.line || k.index + maxKeyLength < r.place.index

/-- Gives up possible keys that are too far behind; a required one is an error. -/
def dropStaleKeys (r : Reading) : Option Reading :=
  let kept (k : Option KeyStart) := k.filter fun k => !r.isStale k
  let isLost (k : Option KeyStart) := k.any fun k => r.isStale k && k.required
  if isLost r.keyStart || r.outerKeyStarts.any isLost then none
  else some { r with keyStart := kept r.keyStart, outerKeyStarts := r.outerKeyStarts.map kept }

/-! ## Blocks -/

/-- Opens a block at a column, if it is deeper than the innermost one; its mark goes behind the
first tokens. -/
def openBlock (r : Reading) (column : Nat) (t : Token) (count : Nat) : Reading :=
  if r.inFlow || column ≤ r.column then r
  else { r.insertAfter count t with column := column, outerColumns := r.column :: r.outerColumns }

/-- Closes blocks, the innermost first, as long as they are deeper than a column. -/
def closeDeeper (column : Int) : List Int → Reading → Reading
  | [], r => r
  | outer :: rest, r =>
    if r.column ≤ column then r
    else closeDeeper column rest { r.push .blockEnd with column := outer, outerColumns := rest }

/-- Closes the blocks that are deeper than a column. -/
def closeBlocks (r : Reading) (column : Int) : Reading :=
  if r.inFlow then r else closeDeeper column r.outerColumns r

/-! ## Marks -/

/-- Reads a mark that begins or ends a document. -/
def readDocumentMark (r : Reading) (t : Token) : Option Reading := do
  let r ← (r.closeBlocks (-1)).dropKey
  return (r.allowKey false).pushOver t 3

/-- Reads an opening bracket. -/
def openFlow (r : Reading) (t : Token) : Option Reading := do
  let r ← r.rememberKey
  return { (r.allowKey true).pushOver t 1 with
    keyStart := none
    outerKeyStarts := r.keyStart :: r.outerKeyStarts }

/-- Reads a closing bracket. -/
def closeFlow (r : Reading) (t : Token) : Option Reading := do
  let r ← r.dropKey
  let r := (r.allowKey false).pushOver t 1
  match r.outerKeyStarts with
  | k :: rest => return { r with keyStart := k, outerKeyStarts := rest }
  | [] => return r

/-- Reads a comma between brackets. -/
def readComma (r : Reading) : Option Reading := do
  let r ← r.dropKey
  return (r.allowKey true).pushOver .comma 1

/-- Reads a mark that stands in a block of its own kind. -/
def readBlockMark (r : Reading) (block mark : Token) : Option Reading :=
  if r.inFlow then some (r.pushOver mark 1)
  else if !r.keyAllowed then none
  else some ((r.openBlock r.place.column block r.tokens.length).pushOver mark 1)

/-- Reads the dash in front of an item. -/
def readEntry (r : Reading) : Option Reading := do
  let r ← (← r.readBlockMark .blockList .entry).dropKey
  return r.allowKey true

/-- Reads the question mark in front of a key. -/
def readKey (r : Reading) : Option Reading := do
  let r ← (← r.readBlockMark .blockMap .key).dropKey
  return r.allowKey !r.inFlow

/-- Reads the colon in front of a value. -/
def readValue (r : Reading) : Option Reading :=
  match r.keyStart with
  | some k =>
    let r := (r.insertAfter k.tokens .key).openBlock k.column .blockMap k.tokens
    some ({ r.allowKey false with keyStart := none }.pushOver .value 1)
  | none => (r.readBlockMark .blockMap .value).map fun r => r.allowKey !r.inFlow

/-! ## Scalars -/

/-- Adds a scalar that ends at a place. -/
def pushScalar (r : Reading) (text : List Char) (plain : Bool) (c : Cursor) : Reading :=
  { r.push (.scalar (String.ofList text) plain) with place := c }

/-- Reads a quoted scalar. -/
def readQuotedScalar (r : Reading) (q : Quote) : Option Reading := do
  let r ← r.rememberKey
  let c := r.place.next
  let (text, d) ← readQuoted q (c.rest.length + 1) c
  return (r.allowKey false).pushScalar text false d

/-- Reads a plain scalar. -/
def readPlainScalar (r : Reading) : Option Reading := do
  let r ← r.rememberKey
  let column := (r.column + 1).toNat
  let (text, broken, d) ← readPlain r.inFlow column (r.place.rest.length + 1) {} r.place
  return (r.allowKey broken).pushScalar text true d

/-- Reads a block scalar. -/
def readBlockScalar (r : Reading) (literal : Bool) : Option Reading := do
  let r ← r.dropKey
  let (text, d) ← readBlock literal r.column r.place.next
  return (r.allowKey true).pushScalar text false d

/-! ## The text as a whole -/

/-- Passes what stands between tokens: byte order marks that start a line, blanks, comments and line
breaks.  A tab counts as a blank where no key can start. -/
def passBlanks : Nat → Reading → Reading
  | 0, r => r
  | fuel + 1, r =>
    let c := r.place.skipOrderMark
    let isBlank (d : Char) := d == ' ' || (d == '\t' && (r.inFlow || !r.keyAllowed))
    let c := c.skip (c.rest.takeWhile isBlank).length
    let c := if c.holds '#' then c.lineRest.2 else c
    match c.break? with
    | none => { r with place := c }
    | some (_, d) =>
      passBlanks fuel { r with place := d, keyAllowed := r.keyAllowed || !r.inFlow }

/-- Characters with which no plain scalar starts. -/
def indicators : List Char :=
  ['-', '?', ':', ',', '[', ']', '\x7b', '\x7d', '#', '&', '*', '!', '|', '>', '\'', '"', '%', '@',
    '\x60']

/-- A plain scalar starts here.  Of the indicators a dash may start one, and outside of brackets a
question mark or a colon may, if something follows. -/
def startsPlain (r : Reading) (d : Char) : Bool :=
  (!isGap d && !indicators.contains d)
    || (d == '-' && !(r.place.peek? 1).any isGap)
    || (!r.inFlow && (d == '?' || d == ':') && !r.place.endsWordAt 1)

/-- Reads the token that starts with a character. -/
def readToken (r : Reading) (d : Char) : Option Reading :=
  let alone := r.place.endsWordAt 1
  if r.place.atMark '-' then r.readDocumentMark .documentStart
  else if r.place.atMark '.' then r.readDocumentMark .documentEnd
  else match d with
    | '[' => r.openFlow .flowList
    | '\x7b' => r.openFlow .flowMap
    | ']' => r.closeFlow .flowListEnd
    | '\x7d' => r.closeFlow .flowMapEnd
    | ',' => r.readComma
    | '\'' => r.readQuotedScalar .single
    | '"' => r.readQuotedScalar .double
    | _ =>
      if d == '-' && alone then r.readEntry
      else if d == '?' && (r.inFlow || alone) then r.readKey
      else if d == ':' && (r.inFlow || alone) then r.readValue
      else if d == '|' && !r.inFlow then r.readBlockScalar true
      else if d == '>' && !r.inFlow then r.readBlockScalar false
      else if r.startsPlain d then r.readPlainScalar
      else none

/-- Ends the text: every block is closed. -/
def finish (r : Reading) : Option (List Token) :=
  ((r.closeBlocks (-1)).dropKey).map fun r => r.tokens.reverse

/-- Reads tokens up to the end of the text. -/
def run : Nat → Reading → Option (List Token)
  | 0, _ => none
  | fuel + 1, r => do
    let r := passBlanks (r.place.rest.length + 1) r
    let r ← r.dropStaleKeys
    let r := r.closeBlocks r.place.column
    match r.place.head? with
    | none => r.finish
    | some d => run fuel (← r.readToken d)

end Reading

/-- The tokens of a text. -/
def Token.ofText? (text : String) : Option (List Token) :=
  let cs := text.toList
  if cs.all isPermitted then Reading.run (cs.length + 1) { place := { rest := cs } } else none

end Reconcile.Yaml
