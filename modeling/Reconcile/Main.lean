import Reconcile.Run
import Std.Time

/-!
# Main — the program

The machine that commands are carried out on: its files, its variables, its clock and its streams.
Nothing is decided here; `Host.run` says what a command line does.
-/

namespace Reconcile

/-- The result of an action, if it does not fail. -/
def attempt {α : Type} (action : IO α) : IO (Option α) := do
  try return some (← action)
  catch _ => return none

/-- The moment that the clock shows. -/
def clock : IO Timestamp := do
  let nanos := (← Std.Time.Timestamp.now).toNanosecondsSinceUnixEpoch.val
  return ⟨nanos / 1000000000, (nanos % 1000000000).toNat⟩

/-- Reports have colours if they go to a terminal, unless the variables of the surroundings want it
otherwise. -/
def colors : IO Bool := do
  let chosen ← IO.getEnv "CLICOLOR"
  let forced ← IO.getEnv "CLICOLOR_FORCE"
  if forced.any (· != "0") then return true
  else if (← IO.getEnv "NO_COLOR").isSome then return false
  else return chosen != some "0" && (← (← IO.getStdout).isTty)

/-- The machine that the program runs on. -/
def machine : Host IO where
  readFile path := attempt (IO.FS.readFile path)
  pathExists path := do ((← IO.currentDir) / path).pathExists
  writeFile path text := return (← attempt (IO.FS.writeFile path text)).isSome
  lookUp name := IO.getEnv name
  currentDirectory := return (← IO.currentDir).toString
  now := clock
  hasColors := colors
  print text := do
    let out ← IO.getStdout
    out.putStr text
    out.flush
  complain line := IO.eprintln line

end Reconcile

/-- Carries out a command line; the result is the exit code. -/
def main (args : List String) : IO UInt32 := Reconcile.machine.run args
