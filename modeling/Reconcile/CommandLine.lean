import Reconcile.CommandLine.Words
import Reconcile.Plan
import Reconcile.Report

/-!
# CommandLine — what the program is asked to do

`Invocation.ofWords` reads a command line.  Options that hold for every command may stand before and
behind the name of the command; behind it they count more, and an option counts more than a variable
of the surroundings.
-/

namespace Reconcile

/-- A command with its own options. -/
inductive Command where
  | plan (state : Option String) (mode : Mode) (generator out : Option String)
  | validate (warnings : Bool)
  | show (plan : String)
deriving DecidableEq

/-- What the program is asked to do. -/
structure Invocation where
  config : Option String := none
  verbose : Bool := false
  output : ReportFormat := .text
  logs : ReportFormat := .text
  command : Command

/-- The name of a report format. -/
def ReportFormat.name : ReportFormat → String
  | .text => "text"
  | .json => "json"

/-- The report format of a name. -/
def ReportFormat.ofName? : String → Option ReportFormat
  | "text" => some .text
  | "json" => some .json
  | _ => none

namespace Invocation

/-- The name of the program. -/
def programName : String := "declplan"

/-- The version of the program. -/
def programVersion : String := "0.1.0"

/-- The names of the commands. -/
def commandNames : List String := ["plan", "validate", "show"]

/-- The options that hold for every command. -/
def commonOptions : List OptionRule := [
  { name := "file", letter := some 'f', kind := .path, envName := some "DECLPLAN_CONFIG" },
  { name := "verbose", letter := some 'v', kind := .switch },
  { name := "output", kind := .choice ["text", "json"] },
  { name := "log-format", kind := .choice ["text", "json"] },
  { name := "help", letter := some 'h', kind := .help },
  { name := "version", letter := some 'V', kind := .version }]

/-- The level in front of the command. -/
def outerLevel : Level := { options := commonOptions, commands := "help" :: commandNames }

/-- The level of a command. -/
def commandLevel (name : String) : Level :=
  match name with
  | "plan" => { options := [
      { name := "state", letter := some 's', kind := .path, envName := some "DECLPLAN_STATE" },
      { name := "mode", kind := .choice ["apply", "sync"] },
      { name := "generator" },
      { name := "out", kind := .path }] ++ commonOptions }
  | "validate" => { options :=
      { name := "warnings", letter := some 'w', kind := .switch } :: commonOptions }
  | _ => { options := commonOptions, argument := some { name := "plan", kind := .path } }

/-- The command with the values of its level. -/
def commandOf (name : String) (values : List (String × String)) : Except UsageFault Command :=
  match name with
  | "plan" =>
    .ok (.plan (values.lookup "state") (((values.lookup "mode").bind Mode.ofName?).getD .apply)
      (values.lookup "generator") (values.lookup "out"))
  | "validate" => .ok (.validate (values.lookup "warnings").isSome)
  | _ =>
    match values.lookup "plan" with
    | some plan => .ok (.show plan)
    | none => .error .missingArgument

/-- The invocation with values in the order in which they count. -/
def ofValues (values : List (String × String)) (command : Command) : Invocation where
  config := values.lookup "file"
  verbose := (values.lookup "verbose").isSome
  output := ((values.lookup "output").bind ReportFormat.ofName?).getD .text
  logs := ((values.lookup "log-format").bind ReportFormat.ofName?).getD .text
  command := command

/-- The commands whose help is asked for have to exist; none has commands of its own. -/
def helpFor : List String → UsageFault
  | [] => .help
  | [name] => if outerLevel.commands.contains name then .help else .unknownCommand
  | _ => .unknownCommand

/-- A command line, or why there is none; the second part names the command that was reached. -/
def read (environment : String → Option String) (words : List String) :
    Except (UsageFault × Option String) Invocation := do
  let here {α : Type} (name : Option String) (r : Except UsageFault α) :
      Except (UsageFault × Option String) α := r.mapError fun f => (f, name)
  let (outer, found) ← here none (outerLevel.readWords false {} words)
  match found with
  | some ("help", rest) => throw (helpFor rest, none)
  | some (name, rest) =>
    let level := commandLevel name
    let (inner, _) ← here (some name) (level.readWords false {} rest)
    let given ← here (some name) inner.settle
    let inner ← here (some name) (level.close environment inner)
    let command ← here (some name) (commandOf name inner.values)
    let outerGiven ← here none outer.settle
    let _ ← here none (outerLevel.close environment outer)
    return ofValues (given.values ++ outerGiven.values ++ inner.values) command
  | none =>
    let outer ← here none (outerLevel.close environment outer)
    throw (if outer.values.isEmpty then .helpForNothing else .missingCommand, none)

end Invocation

end Reconcile
