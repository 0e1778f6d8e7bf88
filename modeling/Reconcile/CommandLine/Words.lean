import Reconcile.Text.Pieces

/-!
# CommandLine/Words — options and arguments among the words of a command line

A level of a command line has options, perhaps one argument, and perhaps commands that open a level
of their own.  `Level.read` takes the words of a level and tells where a command starts.
-/

namespace Reconcile

/-- What an option takes. -/
inductive OptionKind where
  | switch
  | text
  | path
  | choice (words : List String)
  | help
  | version
deriving DecidableEq, Inhabited

/-- An option: its long name, its letter, what it takes, and the variable of the surroundings that
stands in for it. -/
structure OptionRule where
  name : String
  letter : Option Char := none
  kind : OptionKind := .text
  envName : Option String := none
deriving DecidableEq, Inhabited

/-- The option takes a value. -/
def OptionRule.takesValue (o : OptionRule) : Bool :=
  match o.kind with
  | .text => true
  | .path => true
  | .choice _ => true
  | _ => false

/-- A value that the option takes. -/
def OptionRule.accepts (o : OptionRule) (value : String) : Bool :=
  match o.kind with
  | .path => !value.isEmpty
  | .choice words => words.contains value
  | _ => true

/-- Why words are no command line, or what they ask for instead of a command. -/
inductive UsageFault where
  | help
  | version
  | helpForNothing
  | missingCommand
  | unknownCommand
  | unknownOption
  | missingArgument
  | invalidValue
  | tooManyValues
  | repeated
deriving DecidableEq, Inhabited

/-- What words of one level may be.  The argument is named like an option. -/
structure Level where
  options : List OptionRule
  argument : Option OptionRule := none
  commands : List String := []

/-- The values that a level has so far.  The last option or argument may still be unchecked, and
without its value. -/
structure LevelValues where
  values : List (String × String) := []
  pending : Option (OptionRule × Option String) := none
  hasArgument : Bool := false
deriving Inhabited

namespace LevelValues

/-- Sets a value; nothing may be set twice. -/
def set (v : LevelValues) (o : OptionRule) (value : String) : Except UsageFault LevelValues :=
  if (v.values.lookup o.name).isSome then .error .repeated
  else if !o.accepts value then .error .invalidValue
  else .ok { v with values := (o.name, value) :: v.values }

/-- Checks what is pending. -/
def settle (v : LevelValues) : Except UsageFault LevelValues :=
  match v.pending with
  | none => .ok v
  | some (_, none) => .error .invalidValue
  | some (o, some value) => { v with pending := none }.set o value

/-- An option waits for its value. -/
def waits (v : LevelValues) : Bool := v.pending.any fun e => e.2.isNone

/-- Meets an option without a value behind it. -/
def meet (v : LevelValues) (o : OptionRule) : Except UsageFault LevelValues := do
  let v ← v.settle
  match o.kind with
  | .help => throw .help
  | .version => throw .version
  | .switch => v.set o "true"
  | _ => return { v with pending := some (o, none) }

/-- Meets an option with a value attached. -/
def meetWith (v : LevelValues) (o : OptionRule) (value : String) :
    Except UsageFault LevelValues := do
  (← v.settle).set o value

/-- Takes values from the surroundings for options that are not set. -/
def fill (environment : String → Option String) (v : LevelValues) :
    List OptionRule → Except UsageFault LevelValues
  | [] => .ok v
  | o :: rest =>
    match (v.values.lookup o.name), o.envName.bind environment with
    | none, some value => (v.set o value).bind fun v => fill environment v rest
    | _, _ => fill environment v rest

end LevelValues

namespace Level

/-- The option with a long name. -/
def named? (l : Level) (name : String) : Option OptionRule :=
  l.options.find? fun o => o.name == name

/-- The option with a letter. -/
def lettered? (l : Level) (c : Char) : Option OptionRule :=
  l.options.find? fun o => o.letter == some c

/-- Reads the word of a long option, behind its dashes. -/
def readLong (l : Level) (v : LevelValues) (word : List Char) : Except UsageFault LevelValues :=
  let (name, value) := match splitFirst '=' word with
    | some (name, value) => (name, some (String.ofList value))
    | none => (word, none)
  match l.named? (String.ofList name), value with
  | none, _ => .error .unknownOption
  | some o, none => v.meet o
  | some o, some value => if o.takesValue then v.meetWith o value else .error .tooManyValues

/-- Reads a cluster of letters behind a dash; behind the letter of an option that takes a value
stands the value. -/
def readLetters (l : Level) (v : LevelValues) : List Char → Except UsageFault LevelValues
  | [] => .ok v
  | c :: rest =>
    match l.lettered? c with
    | none => .error .unknownOption
    | some o =>
      if !o.takesValue then (v.meet o).bind fun v => l.readLetters v rest
      else
        match rest with
        | [] => v.meet o
        | '=' :: value => v.meetWith o (String.ofList value)
        | value => v.meetWith o (String.ofList value)

/-- Reads a word that is no option. -/
def readArgument (l : Level) (v : LevelValues) (closed : Bool) (word : String) :
    Except UsageFault LevelValues :=
  match l.argument, v.hasArgument with
  | some o, false => do
    return { ← v.settle with pending := some (o, some word), hasArgument := true }
  | _, _ =>
    if l.commands.isEmpty || (closed && l.commands.contains word) then .error .unknownOption
    else .error .unknownCommand

/-- Reads the words of a level up to a command, which is given with the words behind it.  Behind two
dashes, which close the options, every word is an argument. -/
def readWords (l : Level) (closed : Bool) (v : LevelValues) :
    List String → Except UsageFault (LevelValues × Option (String × List String))
  | [] => .ok (v, none)
  | word :: rest =>
    if !closed && !v.waits && l.commands.contains word then .ok (v, some (word, rest))
    else if closed then (l.readArgument v closed word).bind fun v => l.readWords closed v rest
    else
      match word.toList with
      | ['-', '-'] => l.readWords true v rest
      | '-' :: '-' :: long => (l.readLong v long).bind fun v => l.readWords closed v rest
      | '-' :: c :: letters =>
        (l.readLetters v (c :: letters)).bind fun v => l.readWords closed v rest
      | _ =>
        match v.pending with
        | some (o, none) => l.readWords closed { v with pending := some (o, some word) } rest
        | _ => (l.readArgument v closed word).bind fun v => l.readWords closed v rest

/-- Ends a level: what is pending is checked, and the surroundings stand in for what is not set. -/
def close (l : Level) (environment : String → Option String) (v : LevelValues) :
    Except UsageFault LevelValues := do
  (← v.settle).fill environment l.options

end Level

end Reconcile
