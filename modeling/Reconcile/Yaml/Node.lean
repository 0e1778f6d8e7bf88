import Reconcile.Yaml.Token

/-!
# Yaml/Node — the tree of a YAML text

`Node.read?` reads a text that holds one document at most; an empty text is an empty plain scalar,
like every value that is left out.
-/

namespace Reconcile.Yaml

/-- A tree.  Maps keep their entries in the order they were written, and keys may be trees. -/
inductive Node where
  | scalar (text : String) (plain : Bool)
  | list (items : List Node)
  | map (entries : List (Node × Node))
deriving Inhabited

namespace Node

/-- What stands where a value is left out. -/
def nothing : Node := .scalar "" true

/-- Where a value may be left out: the tokens that stand behind it. -/
abbrev Stops := List Token

/-- The next token is one of those behind a value that is left out. -/
def isLeftOut (stops : Stops) : List Token → Bool
  | [] => false
  | t :: _ => stops.contains t

/-- Tokens behind an item of a list that is left out. -/
def itemStops : Stops := [.entry, .blockEnd]

/-- Tokens behind a key or value of a map that is left out; they also end a list in a map whose
items are not indented. -/
def pairStops : Stops := [.key, .value, .blockEnd]

/-- Tokens behind a key between braces that is left out. -/
def flowKeyStops : Stops := [.value, .comma, .flowMapEnd]

/-- Tokens behind a value between braces that is left out. -/
def flowValueStops : Stops := [.comma, .flowMapEnd]

/-- Tokens behind a value between square brackets that is left out. -/
def flowItemStops : Stops := [.comma, .flowListEnd]

mutual

/-- Reads a node.  Block structure is not allowed between brackets, and a list that is not indented
only as part of a map. -/
def read (block flush : Bool) : Nat → List Token → Option (Node × List Token)
  | 0, _ => none
  | fuel + 1, tokens =>
    match tokens with
    | .scalar text plain :: rest => some (.scalar text plain, rest)
    | .flowList :: rest => (readFlowItems fuel rest).map fun (l, rest) => (.list l, rest)
    | .flowMap :: rest => (readFlowPairs fuel rest).map fun (l, rest) => (.map l, rest)
    | .blockList :: rest =>
      if block then (readItems fuel rest).map fun (l, rest) => (.list l, rest) else none
    | .blockMap :: rest =>
      if block then (readPairs fuel rest).map fun (l, rest) => (.map l, rest) else none
    | .entry :: _ =>
      if flush then (readFlushItems fuel tokens).map fun (l, rest) => (.list l, rest) else none
    | _ => none

/-- Reads a node that may be left out. -/
def readOrNothing (block flush : Bool) (stops : Stops) :
    Nat → List Token → Option (Node × List Token)
  | 0, _ => none
  | fuel + 1, tokens =>
    if isLeftOut stops tokens then some (nothing, tokens) else read block flush fuel tokens

/-- Reads the items of an indented list. -/
def readItems : Nat → List Token → Option (List Node × List Token)
  | 0, _ => none
  | fuel + 1, tokens =>
    match tokens with
    | .entry :: rest => do
      let (item, rest) ← readOrNothing true false itemStops fuel rest
      let (items, rest) ← readItems fuel rest
      return (item :: items, rest)
    | .blockEnd :: rest => some ([], rest)
    | _ => none

/-- Reads the items of a list that is not indented. -/
def readFlushItems : Nat → List Token → Option (List Node × List Token)
  | 0, _ => none
  | fuel + 1, tokens =>
    match tokens with
    | .entry :: rest => do
      let (item, rest) ← readOrNothing true false (.entry :: pairStops) fuel rest
      let (items, rest) ← readFlushItems fuel rest
      return (item :: items, rest)
    | _ => some ([], tokens)

/-- Reads the entries of a map. -/
def readPairs : Nat → List Token → Option (List (Node × Node) × List Token)
  | 0, _ => none
  | fuel + 1, tokens =>
    match tokens with
    | .key :: rest => do
      let (key, rest) ← readOrNothing true true pairStops fuel rest
      let (value, rest) ← readPairValue fuel rest
      let (pairs, rest) ← readPairs fuel rest
      return ((key, value) :: pairs, rest)
    | .blockEnd :: rest => some ([], rest)
    | _ => none

/-- Reads the value behind a key of a map. -/
def readPairValue : Nat → List Token → Option (Node × List Token)
  | 0, _ => none
  | fuel + 1, tokens =>
    match tokens with
    | .value :: rest => readOrNothing true true pairStops fuel rest
    | _ => some (nothing, tokens)

/-- Reads what stands between square brackets. -/
def readFlowItems : Nat → List Token → Option (List Node × List Token)
  | 0, _ => none
  | fuel + 1, tokens =>
    match tokens with
    | .flowListEnd :: rest => some ([], rest)
    | _ => do
      let (item, rest) ← readFlowItem fuel tokens
      let (items, rest) ← readMoreFlowItems fuel rest
      return (item :: items, rest)

/-- Reads what stands between square brackets behind an item. -/
def readMoreFlowItems : Nat → List Token → Option (List Node × List Token)
  | 0, _ => none
  | fuel + 1, tokens =>
    match tokens with
    | .comma :: rest => readFlowItems fuel rest
    | .flowListEnd :: rest => some ([], rest)
    | _ => none

/-- Reads an item between square brackets: a node, or a single entry of a map. -/
def readFlowItem : Nat → List Token → Option (Node × List Token)
  | 0, _ => none
  | fuel + 1, tokens =>
    match tokens with
    | .key :: rest => do
      let (key, rest) ← readOrNothing false false (.value :: flowItemStops) fuel rest
      let (value, rest) ← readFlowValue flowItemStops fuel rest
      return (.map [(key, value)], rest)
    | _ => read false false fuel tokens

/-- Reads the value behind a key between brackets. -/
def readFlowValue (stops : Stops) : Nat → List Token → Option (Node × List Token)
  | 0, _ => none
  | fuel + 1, tokens =>
    match tokens with
    | .value :: rest => readOrNothing false false stops fuel rest
    | _ => some (nothing, tokens)

/-- Reads what stands between braces. -/
def readFlowPairs : Nat → List Token → Option (List (Node × Node) × List Token)
  | 0, _ => none
  | fuel + 1, tokens =>
    match tokens with
    | .flowMapEnd :: rest => some ([], rest)
    | _ => do
      let (pair, rest) ← readFlowPair fuel tokens
      let (pairs, rest) ← readMoreFlowPairs fuel rest
      return (pair :: pairs, rest)

/-- Reads what stands between braces behind an entry. -/
def readMoreFlowPairs : Nat → List Token → Option (List (Node × Node) × List Token)
  | 0, _ => none
  | fuel + 1, tokens =>
    match tokens with
    | .comma :: rest => readFlowPairs fuel rest
    | .flowMapEnd :: rest => some ([], rest)
    | _ => none

/-- Reads an entry between braces: a key with a value, or a key alone. -/
def readFlowPair : Nat → List Token → Option ((Node × Node) × List Token)
  | 0, _ => none
  | fuel + 1, tokens =>
    match tokens with
    | .key :: rest => do
      let (key, rest) ← readOrNothing false false flowKeyStops fuel rest
      let (value, rest) ← readFlowValue flowValueStops fuel rest
      return ((key, value), rest)
    | _ => (read false false fuel tokens).map fun (key, rest) => ((key, nothing), rest)

end

/-- The steps that reading some tokens takes at most. -/
def stepsFor (tokens : List Token) : Nat := 4 * tokens.length + 8

/-- Reads the content of a document behind its mark. -/
def readContent (tokens : List Token) : Option (Node × List Token) :=
  match tokens with
  | [] => some (nothing, [])
  | .documentStart :: _ => some (nothing, tokens)
  | .documentEnd :: _ => some (nothing, tokens)
  | _ => read true false (stepsFor tokens) tokens

/-- The only document of a stream of tokens. -/
def ofTokens? (tokens : List Token) : Option Node :=
  let content := match tokens with
    | [] => some (nothing, [])
    | .documentStart :: rest => readContent rest
    | _ => read true false (stepsFor tokens) tokens
  content.bind fun (node, rest) => if rest.all (· == .documentEnd) then some node else none

/-- The tree of a text. -/
def read? (text : String) : Option Node := (Token.ofText? text).bind ofTokens?

end Node

end Reconcile.Yaml
