import Crosslink.Path.Basic

/-!
# Problems and diagnostics

Resolution never stops at a bad reference or target. It leaves an invalid
node in its place, which carries a `Problem`: a kind and a message. The
same problem tied to its document is a `Diagnostic`.
-/

namespace Crosslink

/-- Kinds of resolution problems. -/
inductive ProblemKind where
  | circularAlias
  | aliasChainTooLong
  | duplicateIdentifier
  | restrictedFormat
  | tooManyAnonymous
  | tooManyAutonumber
  | tooManyAutosymbol
  | unresolved
deriving Repr, DecidableEq

namespace ProblemKind

/-- Every kind once. -/
def all : List ProblemKind :=
  [circularAlias, aliasChainTooLong, duplicateIdentifier, restrictedFormat,
   tooManyAnonymous, tooManyAutonumber, tooManyAutosymbol, unresolved]

/-- Short tag used in reports. -/
def tag : ProblemKind → String
  | circularAlias => "circular-alias"
  | aliasChainTooLong => "circular-index"
  | duplicateIdentifier => "duplicate-id"
  | restrictedFormat => "restricted-format"
  | tooManyAnonymous => "too-many-anonymous"
  | tooManyAutonumber => "too-many-autonumber"
  | tooManyAutosymbol => "too-many-autosymbol"
  | unresolved => "unresolved"

/-- Name used in machine-readable output. -/
def name : ProblemKind → String
  | circularAlias => "circular_alias_reference"
  | aliasChainTooLong => "circular_config_or_index_reference"
  | duplicateIdentifier => "duplicate_identifier"
  | restrictedFormat => "restricted_target_format"
  | tooManyAnonymous => "too_many_anonymous_references"
  | tooManyAutonumber => "too_many_auto_number_references"
  | tooManyAutosymbol => "too_many_auto_symbol_references"
  | unresolved => "unresolved_reference"

def ofName? (name : String) : Option ProblemKind :=
  all.find? (·.name == name)

end ProblemKind

/-- A failure at one node, not yet tied to a document. -/
structure Problem where
  kind : ProblemKind
  message : String
deriving Repr, DecidableEq

/-- A problem and the document it was found in. -/
structure Diagnostic where
  path : AbsolutePath
  problem : Problem
deriving Repr, DecidableEq

end Crosslink
