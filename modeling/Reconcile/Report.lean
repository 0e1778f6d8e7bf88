import Reconcile.Plan.Digest
import Reconcile.Plan.Document
import Reconcile.Text.Grid
import Reconcile.Validation

/-!
# Report — what commands print

A report is written for a reader, with or without colours, or as indented JSON.
-/

namespace Reconcile

/-- For whom a report is written. -/
inductive ReportFormat where
  | text
  | json
deriving DecidableEq, Inhabited

/-- How a report is written. -/
structure ReportStyle where
  format : ReportFormat := .text
  colors : Bool := false

/-- The terminal's codes for what is emphasised. -/
inductive Emphasis where
  | bold
  | red
  | green
  | yellow

/-- The number of an emphasis in an escape sequence. -/
def Emphasis.code : Emphasis → String
  | .bold => "1"
  | .red => "31"
  | .green => "32"
  | .yellow => "33"

namespace ReportStyle

/-- A text that is emphasised if the report has colours. -/
def paint (style : ReportStyle) (e : Emphasis) (s : String) : String :=
  if style.colors then "\x1b[" ++ e.code ++ "m" ++ s ++ "\x1b[0m" else s

/-- The mark of success. -/
def tick (style : ReportStyle) : String := style.paint .green "✓"

/-- The mark of failure. -/
def cross (style : ReportStyle) : String := style.paint .red "✗"

/-- The head of a list of warnings. -/
def warningsHead (style : ReportStyle) : String := "\n" ++ style.paint .yellow "⚠" ++ " Warnings:\n"

/-- A line of a list. -/
def listLine (s : String) : String := "   - " ++ s ++ "\n"

/-- A remark that something went well. -/
def success (style : ReportStyle) (message : String) : String :=
  match style.format with
  | .text => style.tick ++ " " ++ message
  | .json => (Json.object [("message", .string message), ("status", .string "ok")]).compact

/-! ## Plans -/

/-- The greatest length of an identifier in a table. -/
def idWidth : Nat := 48

/-- A text cut to a length, with dots for what is missing. -/
def shortened (length : Nat) (s : String) : String :=
  if s.length ≤ length then s else String.ofList (s.toList.take (length - 3)) ++ "..."

/-- The cell for an action. -/
def actionCell (style : ReportStyle) : Action → String
  | .create => style.paint .green "+create"
  | .update => style.paint .yellow "~update"
  | .delete => style.paint .red "-delete"

/-- The cell for the protection of a change. -/
def protectionCell (style : ReportStyle) : Option Protection → String
  | some (.status true) => "protected"
  | some (.flip f) =>
    if !f.isChange then "" else if f.new then "protect" else style.paint .yellow "unprotect"
  | _ => ""

/-- The head of the table of changes. -/
def changeHead : List String := ["#", "Action", "Change", "Namespace", "Protection", "Depends on"]

/-- The row of a change. -/
def changeRow (style : ReportStyle) (number : Nat) (c : Change) : List String :=
  [toString number, style.actionCell c.action, shortened idWidth c.id, c.scope,
    style.protectionCell c.protection, String.intercalate ", " c.dependsOn]

/-- The changes of a plan in the order in which they run; without an order, as they are listed. -/
def orderedChanges (p : Plan) : List Change :=
  if p.order.isEmpty then p.changes else p.order.filterMap p.change?

/-- The table of the changes of a plan. -/
def changeTable (style : ReportStyle) (p : Plan) : String :=
  grid (changeHead :: (orderedChanges p).zipIdx.map fun e => style.changeRow (e.2 + 1) e.1)

/-- The head of the report on a plan. -/
def planHead (style : ReportStyle) (p : Plan) (digest : String) : String :=
  "\nPlan (" ++ style.paint .bold p.metadata.mode.name ++ ") by " ++ p.metadata.generator ++ " at "
    ++ p.metadata.generatedAt.display ++ "\n   Digest: " ++ shortDigest digest ++ "\n\n"

/-- The counts below the table of changes. -/
def countsLine (style : ReportStyle) (s : Summary) : String :=
  let count (a : Action) := toString ((s.byAction.get? a.name).getD 0)
  "\nPlan: " ++ style.paint .green (count .create) ++ " to create, "
    ++ style.paint .yellow (count .update) ++ " to update, "
    ++ style.paint .red (count .delete) ++ " to destroy\n"

/-- The counts of protection flips. -/
def flipsLine : Option FlipCounts → String
  | some f =>
    "Protection: " ++ toString f.protecting ++ " protecting, " ++ toString f.unprotecting
      ++ " unprotecting\n"
  | none => ""

/-- The warnings of a plan. -/
def warningLines (style : ReportStyle) (warnings : List Warning) : String :=
  if warnings.isEmpty then ""
  else style.warningsHead
    ++ String.join (warnings.map fun w => listLine (w.changeId ++ ": " ++ w.message))

/-- The report on a plan for a reader. -/
def planText (style : ReportStyle) (p : Plan) (digest : String) : String :=
  style.planHead p digest ++
    if p.isEmpty then
      style.tick ++ " No changes required - current state matches the declaration.\n"
    else
      style.changeTable p ++ "\n" ++ style.countsLine p.summary ++ flipsLine p.summary.flips
        ++ style.warningLines p.warnings

/-- The report on a plan. -/
def plan (style : ReportStyle) (p : Plan) (digest : String) : String :=
  match style.format with
  | .text => style.planText p digest
  | .json => (Json.object [("digest", .string digest), ("plan", p.toJson)]).indented

/-! ## Validation -/

/-- The report on the faults of a document for a reader. -/
def validationText (style : ReportStyle) (faults : List PlacedFault) (warnings : List String)
    (showWarnings : Bool) : String :=
  let verdict :=
    if faults.isEmpty then style.tick ++ " Desired state is valid\n"
    else style.cross ++ " Desired state has " ++ toString faults.length ++ " error(s):\n"
      ++ String.join (faults.map fun f => listLine f.display)
  let remarks :=
    if warnings.isEmpty then ""
    else if showWarnings then style.warningsHead ++ String.join (warnings.map listLine)
    else "   (" ++ toString warnings.length ++ " warning(s), use --warnings to show)\n"
  verdict ++ remarks

/-- The document on the faults of a document. -/
def validationJson (faults : List PlacedFault) (warnings : List String) (showWarnings : Bool) :
    Json := .ofParts [
  Json.field "valid" (.bool faults.isEmpty),
  Json.field "errors" (.array (faults.map fun f =>
    .object [("field", .string f.field), ("message", .string f.message)])),
  Json.fieldUnless (!showWarnings || warnings.isEmpty) "warnings" (Json.strings warnings)]

/-- The report on the faults of a document. -/
def validation (style : ReportStyle) (s : DesiredState) (showWarnings : Bool) : String :=
  match style.format with
  | .text => style.validationText s.faults s.warnings showWarnings
  | .json => (validationJson s.faults s.warnings showWarnings).indented

end ReportStyle

end Reconcile
