import Crosslink.Text.Basic

/-!
# External destinations

A link destination is external when it names a host (`//host`) or starts
with a scheme: an ASCII letter, then letters, digits, `+`, `.` or `-`, up
to the first colon. Everything else is a path in the tree.
-/

namespace Crosslink

/-- Characters of a scheme after the first one. -/
def isSchemeChar (c : Char) : Bool :=
  c.isAlphanum || c == '+' || c == '.' || c == '-'

/-- A well-formed scheme. -/
def isScheme : List Char → Bool
  | [] => false
  | c :: cs => c.isAlpha && cs.all isSchemeChar

/-- Whether the destination leaves the document tree. -/
def isExternalUrl (raw : String) : Bool :=
  match raw.toList with
  | '/' :: '/' :: _ => true
  | cs =>
    match Text.cutAt ':' cs with
    | some (scheme, _) => isScheme scheme
    | none => false

end Crosslink
