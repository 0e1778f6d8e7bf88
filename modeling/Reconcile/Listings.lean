import Reconcile.Provider
import Reconcile.Text.Blank

/-!
# Listings — remembering what the remote side listed

During a pass each listing is fetched at most once.  A listing is remembered under its kind and the
normalized list of namespaces; once all namespaces of a kind have been listed, narrower questions
are answered from that listing.  Failures are not remembered.
-/

namespace Reconcile

/-- Namespaces without blanks around them, ascending, each once.  The wildcard stands for all. -/
def normalizeNamespaces (namespaces : List String) : List String :=
  let names := (namespaces.map trim).filter fun s => !s.isEmpty
  if names.contains wildcard then [wildcard] else sortedSet names

/-- The key of a normalized list of namespaces. -/
def namespacesKey (normalized : List String) : String := String.intercalate "," normalized

/-- The listings fetched so far: by kind and key, and for all namespaces of a kind. -/
structure Listings where
  byKey : List ((String × String) × List Resource) := []
  all : List (String × List Resource) := []
deriving Inhabited

/-- The questions asked so far and the listings that came of them. -/
structure Session where
  asked : List Query := []
  listings : Listings := {}
deriving Inhabited

namespace Session

/-- Asks the provider for a listing, past the listings that are remembered. -/
def fetch (p : Provider) (kind : String) (normalized : List String) (s : Session) :
    Except StateFault (List Resource) × Session :=
  (p.list s.asked kind normalized, { s with asked := s.asked ++ [.list kind normalized] })

/-- Asks the provider for the resource with an identifier; nothing is remembered. -/
def get (p : Provider) (kind id : String) (s : Session) :
    Except StateFault (Option Resource) × Session :=
  (p.get s.asked kind id, { s with asked := s.asked ++ [.get kind id] })

/-- Remembers a listing. -/
def remember (kind key : String) (resources : List Resource) (s : Session) : Session :=
  let all := if key = wildcard then (kind, resources) :: s.listings.all else s.listings.all
  { s with listings := ⟨((kind, key), resources) :: s.listings.byKey, all⟩ }

/-- Remembers a narrower listing that was taken from the one of all namespaces. -/
def rememberPart (kind key : String) (resources : List Resource) (s : Session) : Session :=
  { s with listings.byKey := ((kind, key), resources) :: s.listings.byKey }

/-- The managed resources of a kind in namespaces. -/
def list (p : Provider) (kind : String) (namespaces : List String) (s : Session) :
    Except StateFault (List Resource) × Session :=
  let normalized := normalizeNamespaces namespaces
  if normalized.isEmpty then (.ok [], s) else
  let key := namespacesKey normalized
  match s.listings.byKey.lookup (kind, key) with
  | some resources => (.ok resources, s)
  | none =>
    match if key = wildcard then none else s.listings.all.lookup kind with
    | some all =>
      let part := all.filter fun r => normalized.contains r.scope
      (.ok part, s.rememberPart kind key part)
    | none =>
      match s.fetch p kind normalized with
      | (.ok resources, s) => (.ok resources, s.remember kind key resources)
      | (.error e, s) => (.error e, s)

/-- The managed resources of a kind in every namespace. -/
def listAll (p : Provider) (kind : String) (s : Session) :
    Except StateFault (List Resource) × Session := s.list p kind [wildcard]

/-- The first managed resource of a kind with a name. -/
def findByName (p : Provider) (kind name : String) (s : Session) :
    Except StateFault (Option Resource) × Session :=
  let (answer, s) := s.listAll p kind
  (answer.map fun resources => resources.find? fun r => r.name == name, s)

end Session

end Reconcile
