import Reconcile.Declaration
import Reconcile.Json.Reader
import Reconcile.Path
import Reconcile.Resource
import Reconcile.Yaml.Document

/-!
# Documents — desired states, snapshots and plans from the texts of files

Desired states are YAML, plans are JSON, and of snapshots the name of the file tells.
-/

namespace Reconcile

/-- The desired state in a text; `location` is told if there is none. -/
def DesiredState.ofText (text : String) (location : Option String) :
    Except DocumentFault DesiredState :=
  match Yaml.Node.decodeText? DesiredState.decode? text with
  | some s => .ok s
  | none => .error (.unreadable location)

/-- The name of a file tells that it holds YAML. -/
def isYamlName (path : String) : Bool :=
  (Path.extension? path).any fun e => equalIgnoringCase e "yaml" || equalIgnoringCase e "yml"

/-- The snapshot in the text of a file. -/
def Snapshot.ofText (path text : String) : Except StateFault Snapshot :=
  let found := if isYamlName path then Yaml.Node.decodeText? Snapshot.decode? text
    else Json.decodeText? Snapshot.decode? text
  match found with
  | some s => .ok s
  | none => .error .snapshot

/-- The plan in a text. -/
def Plan.ofText (text : String) : Except Failure Plan :=
  match Json.decodeText? Plan.decode? text with
  | some p => .ok p
  | none => .error .serialization

end Reconcile
