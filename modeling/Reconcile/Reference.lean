import Reconcile.Text.Pieces

/-!
# Reference — naming a resource that is declared elsewhere

A reference names a declared resource and one of its fields.  Inside a document it is written as a
text: the marker, the name, and the field behind a `#`; a text without a field means the identifier.
`parse?_text` says which references survive being written.
-/

namespace Reconcile

/-- A reference to a field of a declared resource. -/
structure Reference where
  target : String
  field : String
deriving DecidableEq, Inhabited

namespace Reference

/-- What a written reference starts with. -/
def marker : String := "__REF__:"

/-- The field that a reference means when it names none. -/
def idField : String := "id"

/-- The reference to the identifier of a resource. -/
def toId (target : String) : Reference := ⟨target, idField⟩

/-- A text starts as a written reference does. -/
def isMarked (s : String) : Bool := marker.toList.isPrefixOf s.toList

/-- Reads what stands behind the marker: name and field are cut at the first `#`, and neither may
be empty. -/
def ofBody? (body : List Char) : Option Reference :=
  let parts := (splitFirst '#' body).getD (body, idField.toList)
  if parts.1.isEmpty || parts.2.isEmpty then none
  else some ⟨String.ofList parts.1, String.ofList parts.2⟩

/-- Reads a written reference. -/
def parse? (s : String) : Option Reference := (dropStart? marker.toList s.toList).bind ofBody?

/-- The written form. -/
def text (r : Reference) : String := marker ++ r.target ++ "#" ++ r.field

/-- The reference asks for the identifier, in capitals or not. -/
def targetsId (r : Reference) : Bool := equalIgnoringCase r.field idField

end Reference

/-! ## Remote identifiers -/

/-- The shape of the groups of digits in a remote identifier. -/
def remoteIdGroups : List Nat := [8, 4, 4, 4, 12]

/-- A digit in base sixteen. -/
def isHexDigit (c : Char) : Bool := c.isDigit || ('a' ≤ c && c ≤ 'f') || ('A' ≤ c && c ≤ 'F')

/-- Groups of hexadecimal digits of the given sizes with hyphens between them. -/
def isHyphenated (cs : List Char) : Bool :=
  let groups := pieces '-' cs
  groups.map List.length == remoteIdGroups && groups.all fun g => g.all isHexDigit

/-- A text has the shape that identifiers have on the remote side: thirty-two hexadecimal digits,
or the hyphenated form, plain, between braces or as a name in the `urn:uuid:` space. -/
def looksLikeRemoteId (s : String) : Bool :=
  let cs := s.toList
  let bare := cs.length == 32 && cs.all isHexDigit
  let braced := cs.head? == some '\x7b' && cs.getLast? == some '\x7d' &&
    isHyphenated (cs.tail.dropLast)
  let named := equalIgnoringCase (String.ofList (cs.take 9)) "urn:uuid:" && isHyphenated (cs.drop 9)
  bare || isHyphenated cs || braced || named

end Reconcile
