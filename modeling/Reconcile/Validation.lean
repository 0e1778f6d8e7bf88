import Reconcile.Declaration
import Reconcile.Failure

/-!
# Validation — faults that can be found in a desired state alone

`DesiredState.faults` lists every rule that is broken together with the place, defaults first, then
declaration by declaration; `DesiredState.validate` fails with the first of them.
-/

namespace Reconcile

/-! ## The rules -/

/-- A small letter of ASCII. -/
def isSmallLetter (c : Char) : Bool := 'a' ≤ c && c ≤ 'z'

/-- The greatest length of a namespace, in bytes. -/
def maxNamespaceLength : Nat := 63

/-- A namespace has small letters, digits and hyphens, and no hyphen at its ends. -/
def isNamespace (s : String) : Bool :=
  let cs := s.toList
  !cs.isEmpty && s.utf8ByteSize ≤ maxNamespaceLength
    && cs.all (fun c => isSmallLetter c || c.isDigit || c == '-')
    && cs.head? != some '-' && cs.getLast? != some '-'

/-- A kind is a small letter followed by small letters, digits and underscores. -/
def isKind (s : String) : Bool :=
  match s.toList with
  | [] => false
  | c :: cs => isSmallLetter c && cs.all fun c => isSmallLetter c || c.isDigit || c == '_'

/-- A text has a blank or a `#` in it. -/
def hasBlankOrHash (s : String) : Bool := s.toList.any fun c => isBlank c || c == '#'

/-- A rule that is broken. -/
inductive ValidationFault where
  | emptyKind
  | malformedKind (kind : String)
  | emptyRef
  | malformedRef (ref : String)
  | emptyName (kind ref : String)
  | malformedNamespace (name : String)
  | ownParent (kind ref : String)
  | textReadsAsReference (text : String)
  | malformedReference (text : String)
  | ambiguousReference (reference : Reference)
  | duplicate (kind ref : String)
deriving DecidableEq

/-- The wording of a broken rule. -/
def ValidationFault.message : ValidationFault → String
  | .emptyKind => "Resource type cannot be empty"
  | .malformedKind kind =>
    "Resource type '" ++ kind ++ "' is invalid. Must be lowercase alphanumeric with underscores."
  | .emptyRef => "Resource reference cannot be empty"
  | .malformedRef ref => "Resource reference '" ++ ref ++ "' cannot contain whitespace or '#'"
  | .emptyName kind ref => kind ++ " '" ++ ref ++ "' has an empty name"
  | .malformedNamespace name =>
    "Namespace '" ++ name ++ "' is invalid. Must be 1-" ++ toString maxNamespaceLength
      ++ " lowercase alphanumeric characters or hyphens."
  | .ownParent kind ref => kind ++ " '" ++ ref ++ "' cannot be its own parent"
  | .textReadsAsReference text =>
    "String '" ++ text ++ "' carries the reference prefix but is not a reference"
  | .malformedReference text =>
    "Malformed reference '" ++ text ++ "'. Expected __REF__:<ref> or __REF__:<ref>#<field>."
  | .ambiguousReference reference =>
    "Reference '" ++ reference.text ++ "' is ambiguous. Reference names cannot contain whitespace "
      ++ "or '#', and a single '#' separates the field."
  | .duplicate kind ref => (DocumentFault.duplicate kind ref).message

/-- A broken rule and the place in the document. -/
structure PlacedFault where
  field : String
  fault : ValidationFault
deriving DecidableEq

/-- The wording of a broken rule. -/
def PlacedFault.message (f : PlacedFault) : String := f.fault.message

/-- Place and wording of a broken rule. -/
def PlacedFault.display (f : PlacedFault) : String := f.field ++ ": " ++ f.message

/-- The fault at a place, if a rule is broken there. -/
def faultIf (broken : Bool) (field : String) (fault : ValidationFault) : List PlacedFault :=
  if broken then [⟨field, fault⟩] else []

/-! ## Going through a document -/

/-- Faults of a namespace. -/
def namespaceFaults (field name : String) : List PlacedFault :=
  faultIf (!isNamespace name) field (.malformedNamespace name)

/-- A reference cannot be told apart from another one once it is written. -/
def Reference.isAmbiguous (r : Reference) : Bool :=
  hasBlankOrHash r.target || r.field.toList.contains '#'

/-- Faults of a text: it must not look like a written reference. -/
def textFaults (field text : String) : List PlacedFault :=
  faultIf (Reference.isMarked text) field
    (if (Reference.parse? text).isSome then .textReadsAsReference text
    else .malformedReference text)

/-- The place of an item of a list. -/
def itemPath (field : String) (i : Nat) : String := field ++ "[" ++ toString i ++ "]"

mutual

/-- Faults of a field value, at any depth. -/
def valueFaults (field : String) : Value → List PlacedFault
  | .text s => textFaults field s
  | .reference r => faultIf r.isAmbiguous field (.ambiguousReference r)
  | .list items => itemFaults field 0 items
  | .map entries => entryFaults field entries
  | _ => []

/-- Faults of the items of a list, counted from a number. -/
def itemFaults (field : String) (i : Nat) : List Value → List PlacedFault
  | [] => []
  | item :: rest => valueFaults (itemPath field i) item ++ itemFaults field (i + 1) rest

/-- Faults of the entries of a map. -/
def entryFaults (field : String) : List (String × Value) → List PlacedFault
  | [] => []
  | (key, v) :: rest => valueFaults (field ++ "." ++ key) v ++ entryFaults field rest

end

/-- Faults of the kind of a declaration. -/
def kindFaults (field kind : String) : List PlacedFault :=
  if isBlankText kind then [⟨field, .emptyKind⟩]
  else faultIf (!isKind kind) field (.malformedKind kind)

/-- Faults of the reference of a declaration. -/
def refFaults (field ref : String) : List PlacedFault :=
  if isBlankText ref then [⟨field, .emptyRef⟩]
  else faultIf (hasBlankOrHash ref) field (.malformedRef ref)

/-- A declaration names itself as its parent. -/
def Declaration.isOwnParent (d : Declaration) : Bool :=
  d.parent.any fun p => p.kind == d.kind && p.ref == d.ref

/-- Faults of a declaration by itself. -/
def Declaration.faults (path : String) (d : Declaration) : List PlacedFault :=
  kindFaults (path ++ ".type") d.kind
    ++ refFaults (path ++ ".ref") d.ref
    ++ faultIf (isBlankText d.name) (path ++ ".name") (.emptyName d.kind d.ref)
    ++ (d.scope.map (namespaceFaults (path ++ ".namespace"))).getD []
    ++ faultIf d.isOwnParent (path ++ ".parent") (.ownParent d.kind d.ref)
    ++ entryFaults (path ++ ".fields") d.fields.entries

/-- The place of a declaration. -/
def resourcePath (i : Nat) : String := itemPath "resources" i

/-- Faults of declarations, counted from a number, behind others with the given kinds and
references. -/
def declarationFaults (i : Nat) (seen : List (String × String)) :
    List Declaration → List PlacedFault
  | [] => []
  | d :: rest =>
    d.faults (resourcePath i)
      ++ faultIf (!d.ref.isEmpty && seen.contains (d.kind, d.ref)) (resourcePath i ++ ".ref")
        (.duplicate d.kind d.ref)
      ++ declarationFaults (i + 1) ((d.kind, d.ref) :: seen) rest

/-- Faults of the defaults. -/
def Defaults.faults (d : Defaults) : List PlacedFault :=
  (d.scope.map (namespaceFaults "defaults.namespace")).getD []
    ++ d.scopes.zipIdx.flatMap fun e => namespaceFaults (itemPath "defaults.namespaces" e.2) e.1

namespace DesiredState

/-- Every broken rule of a document. -/
def faults (s : DesiredState) : List PlacedFault :=
  s.defaults.faults ++ declarationFaults 0 [] s.resources

/-- The warning on a parent that is not declared. -/
def parentWarning? (s : DesiredState) (d : Declaration) : Option String :=
  d.parent.bind fun p =>
    if d.isOwnParent || (s.get? p.kind p.ref).isSome then none
    else some (d.kind ++ " '" ++ d.ref ++ "' has parent " ++ p.kind ++ " '" ++ p.ref
      ++ "' which is not declared; it must already exist")

/-- The warnings on a document, declaration by declaration. -/
def warnings (s : DesiredState) : List String := s.resources.filterMap s.parentWarning?

/-- Accepts a document without faults, else fails with the first one. -/
def validate (s : DesiredState) : Except Failure Unit :=
  match s.faults with
  | [] => .ok ()
  | f :: _ => .error (.document (.invalid f.message f.field))

end DesiredState

end Reconcile
