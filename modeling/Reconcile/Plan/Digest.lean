import Reconcile.Plan
import Reconcile.Sha256

/-!
# Plan/Digest — digests of plans and changes

A digest is taken of one text that lists what an executor acts on, with a separator behind each
part.  The functions are written over any digest of texts; the plain ones use SHA-256 of the UTF-8
bytes.  Time and generator do not count.
-/

namespace Reconcile

/-- The separator between the parts of a digested text. -/
def partEnd : String := "\x1f"

/-- Parts with a separator behind each. -/
def separated (parts : List String) : String := String.join (parts.map (· ++ partEnd))

/-- The parts that a map of texts contributes. -/
def Dict.textParts (d : Dict String) : List String := d.entries.flatMap fun e => [e.1, e.2]

/-- The parts that a resolved field contributes. -/
def ResolvedField.parts (f : ResolvedField) : List String :=
  [f.target, f.id] ++ f.hints.textParts ++ (f.targets.zip f.ids).flatMap fun e => [e.1, e.2]

/-- The mark of a status in digested texts. -/
def statusMark (on : Bool) : String := if on then "1" else "0"

/-- The parts that the protection of a change contributes. -/
def protectionParts : Option Protection → List String
  | some (.status on) => ["p:" ++ statusMark on]
  | some (.flip f) => ["o:" ++ statusMark f.old, "n:" ++ statusMark f.new]
  | none => ["-"]

/-- The parts that a parent contributes. -/
def parentParts : Option Parent → List String
  | some p => [p.kind, p.ref, p.id.getD ""]
  | none => []

/-- The parts of a change, in order. -/
def Change.digestParts (c : Change) : List String :=
  [c.id, c.action.name, c.kind, c.ref, c.resourceId.getD "", c.scope]
    ++ c.monikers.textParts
    ++ (c.fields.entries.flatMap fun e => [e.1, e.2.toJson.compact])
    ++ (c.references.entries.flatMap fun e => e.1 :: e.2.parts)
    ++ parentParts c.parent
    ++ protectionParts c.protection
    ++ c.dependsOn

/-- The text of which the digest of a change is taken. -/
def Change.digestText (c : Change) : String := separated c.digestParts

/-- The text of which the digest of a plan is taken, given the digest of texts. -/
def Plan.digestText (digest : String → String) (p : Plan) : String :=
  separated [p.metadata.version, p.metadata.mode.name]
    ++ String.join (p.changes.map fun c => digest c.digestText) ++ partEnd
    ++ separated p.order
    ++ separated (p.warnings.map fun w => w.changeId ++ w.message)

/-- The digest of a text: SHA-256 of its bytes. -/
def textDigest (s : String) : String := Sha256.hexDigest s.toUTF8.toList

/-- The digest of a change. -/
def Change.digest (c : Change) : String := textDigest c.digestText

/-- The digest of a plan. -/
def Plan.digest (p : Plan) : String := textDigest (p.digestText textDigest)

/-- The first twelve characters of a digest. -/
def shortDigest (digest : String) : String := String.ofList (digest.toList.take 12)

/-- Compares two digests byte by byte, with no early end. -/
def digestsMatch (a b : String) : Bool :=
  let x := a.toUTF8.toList
  let y := b.toUTF8.toList
  x.length == y.length && (x.zip y).foldl (fun acc e => acc ||| (e.1 ^^^ e.2)) 0 == 0

end Reconcile
