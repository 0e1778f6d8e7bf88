import Reconcile.Accessors
import Reconcile.Listings
import Reconcile.Plan.Order

/-!
# Resolution — finding out what references stand for

Every reference of a batch is looked for among the creates of the batch, the declarations and the
resources that exist.  What is created in the batch has no identifier yet: the reference is left
unknown, with a hint, and its change depends on the create.  What is found nowhere is reported, and
resolution goes on.  `examine` decides a reference as far as it can without the remote side, and
`conclude` from what was found there.
-/

namespace Reconcile

/-! ## Which fields hold references -/

/-- A text in a field that points at a kind names a resource, unless it is an identifier. -/
def isNameOf (kind : Option String) (s : String) : Bool :=
  kind.isSome && !s.isEmpty && !looksLikeRemoteId s

/-- The reference that a value is in a field that points at a kind. -/
def referenceIn? (kind : Option String) : Value → Option Reference
  | .reference r => some r
  | .text s => if isNameOf kind s then some (.toId s) else none
  | _ => none

/-- The field holds a reference, or a list with one. -/
def holdsReference (field : String) (v : Value) : Bool :=
  match v with
  | .list items => items.any fun item => (referenceIn? (targetKind? field) item).isSome
  | _ => (referenceIn? (targetKind? field) v).isSome

/-! ## Deciding a reference -/

/-- A create of the batch. -/
structure Upcoming where
  id : String
  kind : String
  ref : String
deriving DecidableEq

/-- The creates of a batch. -/
def upcomingOf (changes : List Change) : List Upcoming :=
  (changes.filter fun c => c.action == .create).map fun c => ⟨c.id, c.kind, c.ref⟩

/-- Declarations that references may mean, and the number of kinds that declare a reference. -/
structure DeclaredIndex where
  find? : Option String → String → Option Declaration
  kindCount : String → Nat

/-- The index without declarations. -/
def DeclaredIndex.none : DeclaredIndex := ⟨fun _ _ => Option.none, fun _ => 0⟩

/-- The index of a desired state. -/
def DesiredState.index (s : DesiredState) : DeclaredIndex := ⟨s.find?, s.kindCount⟩

/-- The index that counts no further than whether a reference is declared at all. -/
def DeclaredIndex.coarse (i : DeclaredIndex) : DeclaredIndex :=
  { i with kindCount := fun ref => if (i.find? Option.none ref).isSome then 1 else 0 }

/-- What is consulted besides the remote side. -/
structure Surroundings where
  upcoming : List Upcoming
  index : DeclaredIndex
  accessors : Accessors Declaration

/-- What is known of a reference: its value, the create it waits for, or why it has none. -/
inductive Finding where
  | known (value : String) (name : Option String)
  | pending (dependency name : String)
  | missing (kind : Option String) (reason : String)
deriving DecidableEq

/-- A finding, or the resource that has to be looked up for it. -/
inductive Examination where
  | settled (finding : Finding)
  | lookUp (kind name : String)
deriving DecidableEq

/-- Why a reference of no known kind may be refused. -/
def ambiguousReason : String :=
  "reference matches resources of several types; use a typed reference field"

/-- A reference of no known kind names resources of several kinds. -/
def Surroundings.isAmbiguous (s : Surroundings) (changeId ref : String) : Bool :=
  let created := sortedSet
    ((s.upcoming.filter fun u => u.ref == ref && u.id != changeId).map (·.kind))
  1 < max created.length (s.index.kindCount ref)

/-- The first create of the batch, other than a change itself, that a reference may mean. -/
def Surroundings.upcoming? (s : Surroundings) (changeId : String) (kind : Option String)
    (ref : String) : Option Upcoming :=
  s.upcoming.find? fun u => u.ref == ref && u.id != changeId && kind.all fun k => u.kind == k

/-- The name that a declaration has on the remote side. -/
def Surroundings.declaredName? (s : Surroundings) (d : Declaration) : Option String :=
  (s.accessors.read? d.kind nameField d).map Value.plainText

/-- The field that a reference reads, if it is declared and not the identifier. -/
def Surroundings.declaredField? (s : Surroundings) (declared : Option Declaration)
    (r : Reference) : Option String :=
  if r.targetsId then none
  else declared.bind fun d => (s.accessors.read? d.kind r.field d).map Value.plainText

/-- The identifier that a reference asks for, if it is declared. -/
def Surroundings.declaredId? (s : Surroundings) (declared : Option Declaration)
    (r : Reference) : Option String :=
  if !r.targetsId then none
  else declared.bind fun d =>
    ((s.accessors.read? d.kind idField d).map Value.plainText).filter fun id => !id.isEmpty

/-- Decides a reference of a change as far as the remote side is not needed.  A declared field comes
first, then a create of the batch, then a declared identifier. -/
def Surroundings.examine (s : Surroundings) (changeId : String) (kind : Option String)
    (r : Reference) : Examination :=
  if kind.isNone && s.isAmbiguous changeId r.target then .settled (.missing none ambiguousReason)
  else
    let declared := s.index.find? kind r.target
    let name := declared.bind s.declaredName?
    match s.declaredField? declared r with
    | some value => .settled (.known value name)
    | none =>
      match s.upcoming? changeId kind r.target with
      | some u => .settled (.pending u.id (name.getD r.target))
      | none =>
        match s.declaredId? declared r with
        | some id => .settled (.known id name)
        | none =>
          match (declared.map (·.kind)).or kind with
          | none => .settled (.missing none "resource type of the reference is unknown")
          | some k => .lookUp k (name.getD r.target)

/-- What an existing resource has for a reference. -/
def Resource.answer? (found : Resource) (r : Reference) : Option String :=
  if r.targetsId then some found.id
  else if r.field = nameField then some found.name
  else (FieldMap.getPath? found.fields r.field).map Value.plainText

/-- Decides a reference from the resource that was looked up for it. -/
def conclude (r : Reference) (kind name : String) : Option Resource → Finding
  | none =>
    .missing kind (kind ++ " " ++ quoted name ++ " not found in configuration or current state")
  | some found =>
    match found.answer? r with
    | some value => .known value found.name
    | none => .missing kind (kind ++ " " ++ quoted name ++ " has no field " ++ r.field)

/-- Decides a reference, with the remote side where it is needed.  A kind that the remote side does
not know has no resources. -/
def Surroundings.resolve (s : Surroundings) (p : Provider) (changeId : String)
    (kind : Option String) (r : Reference) (session : Session) :
    Except StateFault Finding × Session :=
  match s.examine changeId kind r with
  | .settled finding => (.ok finding, session)
  | .lookUp k name =>
    match session.findByName p k name with
    | (.ok found, session) => (.ok (conclude r k name found), session)
    | (.error e, session) =>
      (if e.isNotConfigured then .ok (conclude r k name none) else .error e, session)

/-! ## Recording what was found -/

/-- What a run of the resolution has found so far. -/
structure Tally where
  resolved : Nat := 0
  unknown : Nat := 0
  warnings : List Warning := []
  faults : List ReferenceFault := []
deriving DecidableEq, Inhabited

/-- Counts a reference with a value. -/
def Tally.addResolved (t : Tally) : Tally := { t with resolved := t.resolved + 1 }

/-- Counts a reference that is left unknown, with a warning. -/
def Tally.addUnknown (t : Tally) (changeId field target : String) : Tally :=
  let message := "Reference " ++ field ++ "=" ++ target ++ " will be resolved during execution"
  { t with unknown := t.unknown + 1, warnings := t.warnings ++ [⟨changeId, message⟩] }

/-- Adds a fault. -/
def Tally.addFault (t : Tally) (f : ReferenceFault) : Tally := { t with faults := t.faults ++ [f] }

/-- The state of a run: the change at hand, what was found so far, and the session. -/
structure Progress where
  change : Change
  tally : Tally
  session : Session

/-- A step of a run, which ends early when the remote side fails. -/
abbrev Resolve := ExceptT StateFault (StateM Progress)

/-- The key of the hint with the name of a resource. -/
def nameHint : String := "name"

/-- The key of the hints with the names of resources, item by item. -/
def namesHint : String := "names"

namespace Resolution

/-- Decides a reference of the change at hand. -/
def decideReference (s : Surroundings) (p : Provider) (kind : Option String) (r : Reference) :
    Resolve Finding := fun progress =>
  match s.resolve p progress.change.id kind r progress.session with
  | (answer, session) => (answer, { progress with session := session })

/-- Changes the state of the run. -/
def update (f : Progress → Progress) : Resolve Unit := fun progress => (.ok (), f progress)

/-- Records a reference that has a value. -/
def recordResolved : Resolve Unit := update fun g => { g with tally := g.tally.addResolved }

/-- Records a reference that waits for a create. -/
def recordUnknown (field target dependency : String) : Resolve Unit := update fun g =>
  { g with
    change := g.change.addDependency dependency
    tally := g.tally.addUnknown g.change.id field target }

/-- Records a fault of the change at hand. -/
def recordFault (field target : String) (kind : Option String) (reason : String) : Resolve Unit :=
  update fun g => { g with tally := g.tally.addFault ⟨g.change.id, field, target, kind, reason⟩ }

/-- Writes what is known of a field into the change at hand. -/
def recordField (field : String) (known : ResolvedField) : Resolve Unit := update fun g =>
  { g with change := { g.change with references := g.change.references.insert field known } }

/-- Resolves the reference in a scalar field. -/
def resolveScalar (s : Surroundings) (p : Provider) (field : String) (r : Reference) :
    Resolve Unit := do
  match ← decideReference s p (targetKind? field) r with
  | .known value _ =>
    recordResolved
    recordField field { target := r.target, id := value }
  | .pending dependency name =>
    recordUnknown field r.target dependency
    recordField field
      { target := r.target, id := unknownId, hints := Dict.singleton nameHint name }
  | .missing kind reason => recordFault field r.target kind reason

/-- One item of a list of references: what it names, its identifier and its name. -/
structure ResolvedItem where
  target : String
  id : String
  name : String
deriving DecidableEq

/-- Resolves an item of a list; nothing comes of one that cannot be resolved. -/
def resolveItem (s : Surroundings) (p : Provider) (field : String) (item : Value) :
    Resolve (Option ResolvedItem) := do
  let kind := targetKind? field
  match item.text?.filter looksLikeRemoteId with
  | some id => return some ⟨id, id, ""⟩
  | none =>
    match referenceIn? kind item with
    | none =>
      recordFault field item.plainText kind "array item is neither a reference nor a remote id"
      return none
    | some r =>
      match ← decideReference s p kind r with
      | .known value name =>
        recordResolved
        return some ⟨r.target, value, name.getD r.target⟩
      | .pending dependency name =>
        recordUnknown field r.target dependency
        return some ⟨r.target, unknownId, name⟩
      | .missing kind reason =>
        recordFault field r.target kind reason
        return none

/-- What is known of a list of references. -/
def listField (items : List ResolvedItem) : ResolvedField where
  targets := items.map (·.target)
  ids := items.map (·.id)
  hintLists :=
    let names := items.map (·.name)
    if names.any fun n => !n.isEmpty then Dict.singleton namesHint names else ∅
  isList := true

/-- Resolves the references in a list field; they are written down only if every item could be
resolved. -/
def resolveList (s : Surroundings) (p : Provider) (field : String) (items : List Value) :
    Resolve Unit := do
  let found ← items.mapM (resolveItem s p field)
  match found.mapM id with
  | some resolved => if resolved.isEmpty then pure () else recordField field (listField resolved)
  | none => pure ()

/-- Resolves the references in a field. -/
def resolveField (s : Surroundings) (p : Provider) (field : String) (v : Value) : Resolve Unit :=
  match v with
  | .list items => resolveList s p field items
  | _ =>
    match referenceIn? (targetKind? field) v with
    | some r => resolveScalar s p field r
    | none => pure ()

/-- Resolves the references in fields, one after the other. -/
def resolveFields (s : Surroundings) (p : Provider) : List (String × Value) → Resolve Unit
  | [] => pure ()
  | (field, v) :: rest => do
    if holdsReference field v then resolveField s p field v
    resolveFields s p rest

/-- Writes the identifier of the parent into the change at hand. -/
def recordParent (id : String) : Resolve Unit := update fun g =>
  let parent := g.change.parent.map fun q => { q with id := some id }
  { g with change := { g.change with parent := parent } }

/-- Resolves the parent of the change at hand, if it has no identifier. -/
def resolveParent (s : Surroundings) (p : Provider) (parent : Parent) : Resolve Unit := do
  let r := Reference.toId parent.ref
  match ← decideReference s p (some parent.kind) r with
  | .known value _ =>
    recordParent value
    recordResolved
  | .pending dependency _ =>
    update fun g => { g with change := g.change.addDependency dependency }
  | .missing kind reason => recordFault "parent" parent.ref kind reason

/-- Resolves the change at hand: its fields in the order of their names, then its parent. -/
def resolveChange (s : Surroundings) (p : Provider) (c : Change) : Resolve Unit := do
  resolveFields s p c.fields.entries
  match c.parent with
  | some parent => if parent.id.isNone then resolveParent s p parent else pure ()
  | none => pure ()

/-- Resolves changes one after the other; deletes stay as they are.  When the remote side fails, the
changes behind the one at hand stay as they are. -/
def resolveChanges (s : Surroundings) (p : Provider) :
    List Change → Tally → Session → Except StateFault Tally × List Change × Session
  | [], tally, session => (.ok tally, [], session)
  | c :: rest, tally, session =>
    if c.action = .delete then
      let (answer, rest, session) := resolveChanges s p rest tally session
      (answer, c :: rest, session)
    else
      match (resolveChange s p c).run.run ⟨c, tally, session⟩ with
      | (.ok (), g) =>
        let (answer, rest, session) := resolveChanges s p rest g.tally g.session
        (answer, g.change :: rest, session)
      | (.error e, g) => (.error e, g.change :: rest, g.session)

end Resolution

/-- Resolves every reference of a batch: what was found, the batch with it written down, and the
session. -/
def resolveReferences (p : Provider) (index : DeclaredIndex) (accessors : Accessors Declaration)
    (changes : List Change) (session : Session) :
    Except StateFault Tally × List Change × Session :=
  Resolution.resolveChanges ⟨upcomingOf changes, index, accessors⟩ p changes {} session

end Reconcile
