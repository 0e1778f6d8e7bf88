import Reconcile.CommandLine
import Reconcile.Documents
import Reconcile.EnvFile
import Reconcile.Pass

/-!
# Run — carrying out commands

Commands are written over a `Host`, which lists all that they need of the machine.
-/

namespace Reconcile

/-- What commands need of the machine. -/
structure Host (m : Type → Type) where
  /-- The text of a file, if it can be read. -/
  readFile : String → m (Option String)
  /-- There is something at a path. -/
  pathExists : String → m Bool
  /-- Writes a file; tells whether that was possible. -/
  writeFile : String → String → m Bool
  /-- The value of a variable of the surroundings. -/
  lookUp : String → m (Option String)
  currentDirectory : m String
  now : m Timestamp
  /-- Reports may have colours. -/
  hasColors : m Bool
  /-- Writes to the standard output. -/
  print : String → m Unit
  /-- Writes a line to the standard error. -/
  complain : String → m Unit

namespace Host

variable {m : Type → Type} [Monad m]

/-- The variables that override the defaults of a document. -/
def overrideNames : List String := ["DECLPLAN_DEFAULT_NAMESPACE", "DECLPLAN_GENERATOR"]

/-- The variables that stand in for options. -/
def optionNames : List String := ["DECLPLAN_CONFIG", "DECLPLAN_STATE"]

/-- The values of some variables. -/
def environment (h : Host m) (names : List String) : m EnvFile.Environment := do
  let values ← names.mapM fun name => do return (name, ← h.lookUp name)
  return fun name => (values.lookup name).join

/-- The names that a document may have where no path is given. -/
def documentNames : List String := ["declplan.yaml", "declplan.yml"]

/-- The first path at which there is something. -/
def firstExisting (h : Host m) : List String → m (Option String)
  | [] => return none
  | path :: rest => do
    if ← h.pathExists path then return some path
    else firstExisting h rest

/-- The path of the document: the one that is given, or else one in the current directory or above
it. -/
def documentPath (h : Host m) (given : Option String) : ExceptT Failure m String := do
  match given with
  | some path => return path
  | none =>
    let here ← h.currentDirectory
    let places := (Path.ancestors here).flatMap fun directory =>
      documentNames.map (Path.join directory)
    match ← h.firstExisting places with
    | some path => return path
    | none => throw (.document (.notFound (Path.join here "declplan.yaml")))

/-- The variables behind the assignments of the file `.env` in a directory, if there is one. -/
def variablesIn (h : Host m) (directory : String) : ExceptT Failure m EnvFile.Environment := do
  let path := Path.join directory ".env"
  if ← h.pathExists path then
    match ((← h.readFile path).bind EnvFile.read?) with
    | some assignments =>
      let env ← h.environment (EnvFile.namesIn assignments ++ overrideNames)
      return EnvFile.apply env assignments
    | none => throw (.document (.unreadable (some path)))
  else h.environment overrideNames

/-- Loads the desired state, with the overrides of the surroundings. -/
def loadDesired (h : Host m) (given : Option String) : ExceptT Failure m DesiredState := do
  let path ← h.documentPath given
  let env ← h.variablesIn ((Path.parent? path).getD "")
  if !(← h.pathExists path) then throw (.document (.notFound path))
  match ← h.readFile path with
  | none => throw (.document (.unreadable (some path)))
  | some text =>
    match DesiredState.ofText text (some path) with
    | .ok s => return s.override env
    | .error e => throw (.document e)

/-- Loads a snapshot; without a path nothing exists. -/
def loadSnapshot (h : Host m) (given : Option String) : ExceptT Failure m Snapshot := do
  match given with
  | none => return {}
  | some path =>
    match ← h.readFile path with
    | none => throw (.state .snapshot)
    | some text =>
      match Snapshot.ofText path text with
      | .ok s => return s
      | .error e => throw (.state e)

/-- Prints a report, with a line feed at its end. -/
def printReport (h : Host m) (report : String) : m Unit :=
  h.print (if report.toList.getLast? == some '\n' then report else report ++ "\n")

/-- Makes a plan, writes it to a file if one is named, and prints it. -/
def runPlan (h : Host m) (style : ReportStyle) (config state : Option String)
    (options : PassOptions) (out : Option String) : ExceptT Failure m Unit := do
  let desired ← h.loadDesired config
  ExceptT.mk (pure desired.validate)
  let snapshot ← h.loadSnapshot state
  let planners := withDeclaredKinds [] (sortedSet (desired.kinds ++ snapshot.kinds))
  let now ← h.now
  let plan ← ExceptT.mk (pure
    (generatePlan (.ofSnapshot snapshot) standardAccessors planners desired options now).1)
  match out with
  | some path =>
    if !(← h.writeFile path plan.toJson.indented) then throw .fileAccess
  | none => pure ()
  h.printReport (style.plan plan plan.digest)

/-- What a document with faults fails with: the first fault and the number of all. -/
def validationFailure (faults : List PlacedFault) : Except Failure Unit :=
  match faults with
  | [] => .ok ()
  | first :: _ =>
    .error (.document (.invalid
      (toString faults.length ++ " validation error(s), first: " ++ first.message) first.field))

/-- Prints what is wrong with a document. -/
def runValidate (h : Host m) (style : ReportStyle) (config : Option String) (warnings : Bool) :
    ExceptT Failure m Unit := do
  let desired ← h.loadDesired config
  h.printReport (style.validation desired warnings)
  ExceptT.mk (pure (validationFailure desired.faults))

/-- The plan is the same, and has the same digest, once it is written and read. -/
def survivesWriting (p : Plan) : Except Failure Bool :=
  (Plan.ofText p.toJson.compact).map fun q => q == p && digestsMatch p.digest q.digest

/-- Prints a plan from a file. -/
def runShow (h : Host m) (style : ReportStyle) (path : String) : ExceptT Failure m Unit := do
  match ← h.readFile path with
  | none => throw .fileAccess
  | some text =>
    let plan ← ExceptT.mk (pure (Plan.ofText text))
    if !(← ExceptT.mk (pure (survivesWriting plan))) then
      throw (.internal ("plan " ++ path ++ " does not survive a serialization round trip"))
    h.printReport (style.plan plan plan.digest)

/-- Carries out an invocation. -/
def invoke (h : Host m) (i : Invocation) : ExceptT Failure m Unit := do
  let style : ReportStyle := ⟨i.output, ← h.hasColors⟩
  match i.command with
  | .plan state mode generator out => h.runPlan style i.config state ⟨mode, generator⟩ out
  | .validate warnings => h.runValidate style i.config warnings
  | .show path => h.runShow style path

/-! ## Exit codes -/

/-- The exit code for causes that lie in the input. -/
def userErrorCode : UInt32 := 2

/-- The line that tells the version, of the program or of a command. -/
def versionLine (command : Option String) : String :=
  let name := match command with
    | some c => Invocation.programName ++ "-" ++ c
    | none => Invocation.programName
  name ++ " " ++ Invocation.programVersion ++ "\n"

/-- How the program is used. -/
def usageText : String :=
  "Usage: declplan [OPTIONS] <COMMAND>\n\n"
    ++ "Commands:\n"
    ++ "  plan      Make a plan from the desired state and a snapshot of what exists\n"
    ++ "  validate  Check the desired-state document\n"
    ++ "  show      Show a saved plan\n"
    ++ "  help      Print this text\n\n"
    ++ "Options:\n"
    ++ "  -f, --file <FILE>        The desired-state document\n"
    ++ "  -v, --verbose            Tell more\n"
    ++ "      --output <FORMAT>    text or json\n"
    ++ "      --log-format <FORMAT>  text or json\n"
    ++ "  -h, --help               Print this text\n"
    ++ "  -V, --version            Print the version\n"

/-- The wording of a usage fault. -/
def usageMessage : UsageFault → String
  | .missingCommand => "error: a command is required"
  | .unknownCommand => "error: unrecognized command"
  | .unknownOption => "error: unexpected argument"
  | .missingArgument => "error: a required argument was not given"
  | .invalidValue => "error: invalid value for an option"
  | .tooManyValues => "error: unexpected value for an option"
  | .repeated => "error: an option cannot be used multiple times"
  | _ => usageText

/-- Answers words that are no invocation. -/
def refuse (h : Host m) (fault : UsageFault) (command : Option String) : m UInt32 := do
  match fault with
  | .help => h.print usageText; return 0
  | .version => h.print (versionLine command); return 0
  | _ => h.complain (usageMessage fault); return userErrorCode

/-- Carries out a command line; gives the exit code. -/
def run (h : Host m) (words : List String) : m UInt32 := do
  let env ← h.environment optionNames
  match Invocation.read env words with
  | .error (fault, command) => h.refuse fault command
  | .ok i =>
    match ← (h.invoke i).run with
    | .ok () => return 0
    | .error e =>
      h.complain ("Error: " ++ e.message)
      return if e.isUserError then userErrorCode else 1

end Host

end Reconcile
