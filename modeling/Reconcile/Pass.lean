import Reconcile.Change.Builder
import Reconcile.Comparison
import Reconcile.Plan.DeleteLinks
import Reconcile.Plan.Numbering
import Reconcile.Protection

/-!
# Pass — from a desired state to a plan

A pass has fixed stages: declared resources are matched to those that exist, every planner adds its
changes for each namespace, forbidden changes end the pass, references are resolved, the batch is
ordered, and its identifiers are numbered by that order.
-/

namespace Reconcile

/-- What a pass has made so far. -/
structure Draft where
  plan : Plan
  issued : Issued := 0
  violations : List Violation := []
  session : Session := {}

/-- A step of a pass. -/
abbrev Drafting := ExceptT Failure (StateM Draft)

/-- What a planner is told. -/
structure Assignment where
  provider : Provider
  accessors : Accessors Declaration
  desired : DesiredState
  scope : String
  mode : Mode

/-- A planner of one kind of resource: it adds the changes for one namespace to the draft. -/
structure Planner where
  kind : String
  draft : Assignment → Drafting Unit

namespace Drafting

/-- Asks something of the remote side. -/
def ask {α : Type} (question : Session → Except StateFault α × Session) :
    Drafting (Except StateFault α) := fun d =>
  match question d.session with
  | (answer, session) => (.ok answer, { d with session := session })

/-- The answer, or the failure of the pass if there is none.  A kind that the remote side does not
know is given the answer for it. -/
def orUnknown {α : Type} (unknown : α) : Except StateFault α → Drafting α
  | .ok a => pure a
  | .error e => if e.isNotConfigured then pure unknown else throw (.state e)

/-- Changes the draft. -/
def update (f : Draft → Draft) : Drafting Unit := fun d => (.ok (), f d)

/-- Reads something from the draft. -/
def read {α : Type} (f : Draft → α) : Drafting α := fun d => (.ok (f d), d)

/-- Adds the change that a builder makes with the next identifier. -/
def add (build : Issued → Change × Issued) : Drafting Unit := update fun d =>
  let (change, issued) := build d.issued
  { d with plan := d.plan.addChange change, issued := issued }

/-- Adds the change that a builder makes with the next identifier, unless it refuses. -/
def addOrFail (build : Issued → Except DocumentFault (Change × Issued)) : Drafting Unit := fun d =>
  match build d.issued with
  | .ok (change, issued) => (.ok (), { d with plan := d.plan.addChange change, issued := issued })
  | .error e => (.error (.document e), d)

/-- Notes a violation; tells whether there is none. -/
def permitted (violation : Option Violation) : Drafting Bool := fun d =>
  match violation with
  | none => (.ok true, d)
  | some v => (.ok false, { d with violations := d.violations ++ [v] })

/-- Does something for every member of a list, in order. -/
def forEach {α : Type} (act : α → Drafting Unit) : List α → Drafting Unit
  | [] => pure ()
  | a :: rest => do
    act a
    forEach act rest

end Drafting

/-! ## The planner of declared resources -/

/-- A planner of declared resources of one kind: what every create must carry, and how declarations
are compared with what exists. -/
structure KindPlanner where
  kind : String
  required : List String := [nameField]
  compare : Comparator := compareFields

/-- A declaration means an existing resource: by the identifier if it has one, else by name. -/
def isMatch (d : Declaration) (r : Resource) : Bool :=
  match d.id with
  | some id => r.id == id
  | none => r.name == d.name

/-- The parent that a change points at, with its identifier if it is declared. -/
def parentOf (s : DesiredState) (p : ParentRef) : Parent :=
  ⟨p.kind, p.ref, (s.get? p.kind p.ref).bind (·.id)⟩

/-- The fields of a new resource: the declared ones, those that accessors read, and the labels of
the user and of the tool. -/
def createFields (accessors : Accessors Declaration) (kind scope : String) (d : Declaration) :
    FieldMap :=
  let user := match d.labels with
    | .value labels => userLabels labels
    | _ => ∅
  let labels := user.union (managementLabels scope d.isProtected)
  (d.fields.union (accessors.readAll kind d)).insert labelsField (.ofTexts labels)

namespace KindPlanner

/-- Plans to create a declared resource, behind the create of its parent. -/
def planCreate (k : KindPlanner) (a : Assignment) (d : Declaration) : Drafting Unit := do
  let parent := d.parent.map (parentOf a.desired)
  let plan ← Drafting.read (·.plan)
  let dependsOn := match parent with
    | some p =>
      if p.id.isNone then ((plan.createOf? p.kind p.ref).map (·.id)).toList else []
    | none => []
  Drafting.addOrFail (CreateRequest.build {
    kind := k.kind
    ref := d.ref
    scope := a.scope
    fields := createFields a.accessors k.kind a.scope d
    required := k.required
    protect := some d.isProtected
    parent := parent
    dependsOn := dependsOn })

/-- The flip of protection that a declaration asks for. -/
def flipFor (d : Declaration) (r : Resource) : Option Flip :=
  let wanted : Flip := ⟨r.isProtected, d.protect.getD r.isProtected⟩
  if wanted.isChange then some wanted else none

/-- Plans to update an existing resource, if something differs. -/
def planUpdate (k : KindPlanner) (a : Assignment) (d : Declaration) (r : Resource) :
    Drafting Unit := do
  let (needsUpdate, fields) := k.compare d r
  let flip := flipFor d r
  if !needsUpdate && flip.isNone then pure ()
  else if ← Drafting.permitted (updateViolation? k.kind d.name r.isProtected flip needsUpdate) then
    match flip, needsUpdate with
    | some f, false => Drafting.add (buildFlip k.kind d.ref r.id a.scope f)
    | _, _ =>
      Drafting.addOrFail (UpdateRequest.build {
        kind := k.kind
        ref := d.ref
        resourceId := r.id
        scope := a.scope
        fields := fields
        flip := flip
        parent := d.parent.map (parentOf a.desired) })

/-- Plans to delete an existing resource. -/
def planDelete (k : KindPlanner) (a : Assignment) (r : Resource) : Drafting Unit := do
  if ← Drafting.permitted (deleteViolation? k.kind r.name r.isProtected) then
    Drafting.add (DeleteRequest.build {
      kind := k.kind
      ref := r.name
      resourceId := r.id
      scope := a.scope
      monikers := Dict.singleton nameField r.name })

/-- The resource that a declaration adopts by its identifier, whatever namespace it is in. -/
def adopted (k : KindPlanner) (a : Assignment) (d : Declaration) : Drafting (Option Resource) :=
  match d.id with
  | some id => do Drafting.orUnknown none (← Drafting.ask (Session.get a.provider k.kind id))
  | none => pure none

/-- Plans what a declaration asks for, unless the plan deals with the resource already. -/
def planDeclared (k : KindPlanner) (a : Assignment) (current : List Resource) (d : Declaration) :
    Drafting Unit := do
  if ← Drafting.read (·.plan.hasChange k.kind d.ref) then pure ()
  else
    match current.find? (isMatch d) with
    | some r => k.planUpdate a d r
    | none =>
      match ← k.adopted a d with
      | some r => k.planUpdate a d r
      | none => k.planCreate a d

/-- Some declaration of the kind claims a resource by its identifier. -/
def isClaimed (k : KindPlanner) (s : DesiredState) (r : Resource) : Bool :=
  s.resources.any fun d => d.kind == k.kind && d.id == some r.id

/-- The resources that nobody declares any more. -/
def orphans (k : KindPlanner) (a : Assignment) (declared : List Declaration)
    (current : List Resource) : List Resource :=
  current.filter fun r => !k.isClaimed a.desired r && !declared.any fun d => isMatch d r

/-- Plans for one namespace: declarations first, then deletes where the mode asks for them.  A kind
that the remote side does not know is left out. -/
def draft (k : KindPlanner) (a : Assignment) : Drafting Unit := do
  let answer ← Drafting.ask (Session.list a.provider k.kind [a.scope])
  match ← Drafting.orUnknown none (answer.map some) with
  | none => pure ()
  | some current =>
    let declared := a.desired.inScope k.kind a.scope
    Drafting.forEach (k.planDeclared a current) declared
    match a.mode with
    | .sync => Drafting.forEach (k.planDelete a) (k.orphans a declared current)
    | .apply => pure ()

/-- The planner of declared resources as a planner. -/
def toPlanner (k : KindPlanner) : Planner := ⟨k.kind, k.draft⟩

end KindPlanner

/-- Some planner takes care of a kind. -/
def handles (planners : List Planner) (kind : String) : Bool := planners.any fun p => p.kind == kind

/-- Adds a planner of declared resources for each kind that no planner takes care of yet. -/
def withDeclaredKinds (planners : List Planner) (kinds : List String) : List Planner :=
  kinds.foldl (fun ps kind =>
    if handles ps kind then ps
    else ps ++ [(KindPlanner.mk kind [nameField] compareFields).toPlanner])
    planners

/-! ## The stages of a pass -/

/-- The fault of a declaration with an identifier that does not exist. -/
def absentIdentity (d : Declaration) (id : String) : DocumentFault :=
  .invalid (d.kind ++ " '" ++ d.ref ++ "' declares id " ++ id ++ ", which does not exist")
    (d.kind ++ "." ++ d.ref ++ ".id")

/-- Matches a declaration to what exists: a declared identifier has to exist, and a declaration
without one takes that of the resource with its name in its namespace. -/
def matchDeclaration (p : Provider) (s : DesiredState) (d : Declaration) (session : Session) :
    Except Failure Declaration × Session :=
  match d.id with
  | some id =>
    match session.get p d.kind id with
    | (.ok (some _), session) => (.ok d, session)
    | (.ok none, session) => (.error (.document (absentIdentity d id)), session)
    | (.error e, session) =>
      (if e.isNotConfigured then .ok d else .error (.state e), session)
  | none =>
    match session.listAll p d.kind with
    | (.ok existing, session) =>
      let found := existing.find? fun r => r.name == d.name && r.scope == s.scopeOf d
      (.ok { d with id := found.map (·.id) }, session)
    | (.error e, session) =>
      (if e.isNotConfigured then .ok d else .error (.state e), session)

/-- Matches declarations to what exists, in order. -/
def matchDeclarations (p : Provider) (s : DesiredState) :
    List Declaration → Session → Except Failure (List Declaration) × Session
  | [], session => (.ok [], session)
  | d :: rest, session =>
    match matchDeclaration p s d session with
    | (.error e, session) => (.error e, session)
    | (.ok d, session) =>
      match matchDeclarations p s rest session with
      | (.ok ds, session) => (.ok (d :: ds), session)
      | (.error e, session) => (.error e, session)

/-- The desired state with the identifiers of what exists. -/
def DesiredState.resolveIdentities (p : Provider) (s : DesiredState) (session : Session) :
    Except Failure DesiredState × Session :=
  match matchDeclarations p s s.resources session with
  | (.ok ds, session) => (.ok { s with resources := ds }, session)
  | (.error e, session) => (.error e, session)

/-- The namespaces that a pass goes through, ascending. -/
def planningScopes (s : DesiredState) (mode : Mode) : List String :=
  let scopes := match mode with
    | .apply => s.scopes
    | .sync => sortedSet (s.scopes ++ s.defaultScopes)
  if scopes.isEmpty then [defaultNamespace] else scopes

/-- Lets every planner draft its changes for every namespace. -/
def draftAll (provider : Provider) (accessors : Accessors Declaration) (planners : List Planner)
    (desired : DesiredState) (mode : Mode) : Drafting Unit :=
  Drafting.forEach (fun scope =>
    Drafting.forEach (fun planner => planner.draft ⟨provider, accessors, desired, scope, mode⟩)
      planners)
    (planningScopes desired mode)

/-- Resolves the references of a drafted plan. -/
def resolvePlan (provider : Provider) (accessors : Accessors Declaration) (desired : DesiredState)
    (plan : Plan) (session : Session) : Except Failure Plan × Session :=
  match resolveReferences provider desired.index accessors plan.changes session with
  | (.error e, _, session) => (.error (.state e), session)
  | (.ok tally, changes, session) =>
    if tally.faults.isEmpty then
      (.ok { plan with
        changes := changes
        warnings := plan.warnings ++ tally.warnings }.refreshSummary, session)
    else (.error (.unresolved tally.faults), session)

/-- Orders a batch and numbers it by its order. -/
def finishPlan (plan : Plan) : Except Failure Plan :=
  let linked := { plan with changes := linkDeletes plan.changes }
  match executionOrder linked.changes with
  | .error e => .error (.plan e)
  | .ok order =>
    match linked.renumber order with
    | .error e => .error (.plan e)
    | .ok plan => .ok plan

/-- What a pass is asked for. -/
structure PassOptions where
  mode : Mode := .apply
  generator : Option String := none

/-- Makes the plan that takes what exists to the desired state: the plan or the failure, and the
questions asked on the way. -/
def generatePlan (provider : Provider) (accessors : Accessors Declaration)
    (planners : List Planner) (state : DesiredState) (options : PassOptions) (now : Timestamp) :
    Except Failure Plan × List Query :=
  let generator := (options.generator.or state.defaults.generator).getD Plan.defaultGenerator
  match state.resolveIdentities provider {} with
  | (.error e, session) => (.error e, session.asked)
  | (.ok desired, session) =>
    let start : Draft := { plan := .start options.mode generator now, session := session }
    match (draftAll provider accessors planners desired options.mode).run.run start with
    | (.error e, d) => (.error e, d.session.asked)
    | (.ok (), d) =>
      match checkViolations d.violations with
      | .error e => (.error e, d.session.asked)
      | .ok () =>
        match resolvePlan provider accessors desired d.plan d.session with
        | (.error e, session) => (.error e, session.asked)
        | (.ok plan, session) => (finishPlan plan, session.asked)

end Reconcile
