import Reconcile.Plan
import Reconcile.Source

/-!
# Plan/Document — plans as documents

`Plan.toJson` writes a plan, `Plan.decode?` reads one.  Empty parts of a change are left out; the
lists and counts of the plan itself are always written.  A reader takes what is missing for empty.
-/

namespace Reconcile

/-! ## Writing -/

/-- The document of a status or a flip. -/
def Protection.toJson : Protection → Json
  | .status on => .bool on
  | .flip f => .object [("old", .bool f.old), ("new", .bool f.new)]

/-- The document of a resolved field. -/
def ResolvedField.toJson (f : ResolvedField) : Json := .ofParts [
  Json.textUnlessEmpty "ref" f.target,
  Json.textUnlessEmpty "id" f.id,
  Json.fieldUnless f.hints.isEmpty "lookup_fields" (Json.ofTextDict f.hints),
  Json.fieldUnless f.targets.isEmpty "refs" (Json.strings f.targets),
  Json.fieldUnless f.ids.isEmpty "resolved_ids" (Json.strings f.ids),
  Json.fieldUnless f.hintLists.isEmpty "lookup_arrays"
    (.object (f.hintLists.map Json.strings).entries),
  Json.fieldUnless (!f.isList) "is_array" (.bool f.isList)]

/-- The document of a parent. -/
def Parent.toJson (p : Parent) : Json := .ofParts [
  Json.field "type" (.string p.kind),
  Json.field "ref" (.string p.ref),
  Json.fieldOf? "id" (p.id.map .string)]

/-- The document of a change. -/
def Change.toJson (c : Change) : Json := .ofParts [
  Json.field "id" (.string c.id),
  Json.field "resource_type" (.string c.kind),
  Json.field "resource_ref" (.string c.ref),
  Json.fieldOf? "resource_id" (c.resourceId.map .string),
  Json.fieldUnless c.monikers.isEmpty "resource_monikers" (Json.ofTextDict c.monikers),
  Json.field "action" (.string c.action.name),
  Json.fieldUnless c.fields.isEmpty "fields" (FieldMap.toJson c.fields),
  Json.fieldUnless c.references.isEmpty "references"
    (.object (c.references.map ResolvedField.toJson).entries),
  Json.fieldOf? "parent" (c.parent.map Parent.toJson),
  Json.fieldOf? "protection" (c.protection.map Protection.toJson),
  Json.textUnlessEmpty "namespace" c.scope,
  Json.fieldUnless c.dependsOn.isEmpty "depends_on" (Json.strings c.dependsOn)]

/-- The document of flip counts. -/
def FlipCounts.toJson (f : FlipCounts) : Json :=
  .object [("protecting", .nat f.protecting), ("unprotecting", .nat f.unprotecting)]

/-- The document of a summary. -/
def Summary.toJson (s : Summary) : Json := .ofParts [
  Json.field "total_changes" (.nat s.total),
  Json.field "by_action" (.object (s.byAction.map Json.nat).entries),
  Json.field "by_resource" (.object (s.byKind.map Json.nat).entries),
  Json.fieldOf? "protection_changes" (s.flips.map FlipCounts.toJson)]

/-- The document of a warning. -/
def Warning.toJson (w : Warning) : Json :=
  .object [("change_id", .string w.changeId), ("message", .string w.message)]

/-- The document of the metadata. -/
def Metadata.toJson (m : Metadata) : Json := .object [
  ("version", .string m.version),
  ("generated_at", .string m.generatedAt.text),
  ("generator", .string m.generator),
  ("mode", .string m.mode.name)]

/-- The document of a plan. -/
def Plan.toJson (p : Plan) : Json := .ofParts [
  Json.field "metadata" p.metadata.toJson,
  Json.field "changes" (.array (p.changes.map Change.toJson)),
  Json.field "execution_order" (Json.strings p.order),
  Json.field "summary" p.summary.toJson,
  Json.fieldUnless p.warnings.isEmpty "warnings" (.array (p.warnings.map Warning.toJson))]

/-! ## Reading -/

variable {δ : Type} [Source δ]

/-- A name from a fixed list: a text, or a map whose only key it is, with nothing behind it. -/
def Source.word? (d : δ) : Option String :=
  match Source.text? d, Source.entries? d with
  | some s, _ => some s
  | none, some [(s, v)] => if Source.isNothing v then some s else none
  | _, _ => none

/-- Reads an action. -/
def Action.decode? (d : δ) : Option Action := (Source.word? d).bind Action.ofName?

/-- Reads a mode. -/
def Mode.decode? (d : δ) : Option Mode := (Source.word? d).bind Mode.ofName?

/-- Reads a flip. -/
def Flip.decode? (d : δ) : Option Flip := do
  let r ← Record.of? ["old", "new"] d
  return ⟨← r.required "old" Source.bool?, ← r.required "new" Source.bool?⟩

/-- Reads a status or a flip.  To tell them apart all of it is looked at. -/
def Protection.decode? (d : δ) : Option Protection :=
  (Source.json? d).bind fun j =>
    match Source.bool? j with
    | some on => some (.status on)
    | none => (Flip.decode? j).map .flip

/-- Reads a resolved field. -/
def ResolvedField.decode? (d : δ) : Option ResolvedField := do
  let r ← Record.of?
    ["ref", "id", "lookup_fields", "refs", "resolved_ids", "lookup_arrays", "is_array"] d
  return {
    target := ← r.orElse "ref" Source.text? ""
    id := ← r.orElse "id" Source.text? ""
    hints := ← r.orElse "lookup_fields" Source.textDict? ∅
    targets := ← r.orElse "refs" Source.texts? []
    ids := ← r.orElse "resolved_ids" Source.texts? []
    hintLists := ← r.orElse "lookup_arrays" (Source.dict? Source.texts?) ∅
    isList := ← r.orElse "is_array" Source.bool? false }

/-- Reads a parent. -/
def Parent.decode? (d : δ) : Option Parent := do
  let r ← Record.of? ["type", "ref", "id"] d
  return {
    kind := ← r.required "type" Source.text?
    ref := ← r.required "ref" Source.text?
    id := ← r.optional "id" Source.text? }

/-- Reads field values: the entries of an object. -/
def FieldMap.decode? (d : δ) : Option FieldMap :=
  Source.dict? (fun v => (Source.json? v).map Value.ofJson) d

/-- Reads a change. -/
def Change.decode? (d : δ) : Option Change := do
  let r ← Record.of? ["id", "resource_type", "resource_ref", "resource_id", "resource_monikers",
    "action", "fields", "references", "parent", "protection", "namespace", "depends_on"] d
  return {
    id := ← r.required "id" Source.text?
    kind := ← r.required "resource_type" Source.text?
    ref := ← r.required "resource_ref" Source.text?
    resourceId := ← r.optional "resource_id" Source.text?
    monikers := ← r.orElse "resource_monikers" Source.textDict? ∅
    action := ← r.required "action" Action.decode?
    fields := ← r.orElse "fields" FieldMap.decode? ∅
    references := ← r.orElse "references" (Source.dict? ResolvedField.decode?) ∅
    parent := ← r.optional "parent" Parent.decode?
    protection := ← r.optional "protection" Protection.decode?
    scope := ← r.orElse "namespace" Source.text? ""
    dependsOn := ← r.orElse "depends_on" Source.texts? [] }

/-- Reads flip counts. -/
def FlipCounts.decode? (d : δ) : Option FlipCounts := do
  let r ← Record.of? ["protecting", "unprotecting"] d
  return ⟨← r.required "protecting" Source.natural?, ← r.required "unprotecting" Source.natural?⟩

/-- Reads a summary. -/
def Summary.decode? (d : δ) : Option Summary := do
  let r ← Record.of? ["total_changes", "by_action", "by_resource", "protection_changes"] d
  return {
    total := ← r.required "total_changes" Source.natural?
    byAction := ← r.orElse "by_action" (Source.dict? Source.natural?) ∅
    byKind := ← r.orElse "by_resource" (Source.dict? Source.natural?) ∅
    flips := ← r.optional "protection_changes" FlipCounts.decode? }

/-- Reads a warning. -/
def Warning.decode? (d : δ) : Option Warning := do
  let r ← Record.of? ["change_id", "message"] d
  return ⟨← r.required "change_id" Source.text?, ← r.required "message" Source.text?⟩

/-- Reads an instant. -/
def Timestamp.decode? (d : δ) : Option Timestamp := (Source.text? d).bind Timestamp.parse?

/-- Reads metadata. -/
def Metadata.decode? (d : δ) : Option Metadata := do
  let r ← Record.of? ["version", "generated_at", "generator", "mode"] d
  return {
    version := ← r.required "version" Source.text?
    generatedAt := ← r.required "generated_at" Timestamp.decode?
    generator := ← r.required "generator" Source.text?
    mode := ← r.required "mode" Mode.decode? }

/-- Reads a plan. -/
def Plan.decode? (d : δ) : Option Plan := do
  let r ← Record.of? ["metadata", "changes", "execution_order", "summary", "warnings"] d
  return {
    metadata := ← r.required "metadata" Metadata.decode?
    changes := ← r.orElse "changes" (Source.list? Change.decode?) []
    order := ← r.orElse "execution_order" Source.texts? []
    summary := ← r.orElse "summary" Summary.decode? {}
    warnings := ← r.orElse "warnings" (Source.list? Warning.decode?) [] }

end Reconcile
