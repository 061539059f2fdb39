import Crosslink.Resolution.Failure
import Crosslink.Resolution.Scope

/-!
# From paths to targets

A path written in a document is resolved from there. One that climbs above
the root leaves the tree and is kept as its text. Any other needs the tree:
it must name a static document, or a document that has the wanted anchor and
is enabled for every format of the referring one.
-/

namespace Crosslink

inductive PathOutcome where
  | resolved (target : Target)
  /-- The tree has to be known first. -/
  | deferred
  | failed (failure : Failure)
deriving Repr, DecidableEq

namespace Scope

/-- The address of a place below a mapping: the mapped address, the names
below it and the fragment. -/
def mappedUrl (mapping : LinkMapping) (below : List String)
    (fragment : Option String) : String :=
  let names := "/".intercalate below
  let base :=
    if names = "" then mapping.externalUrl
    else if mapping.externalUrl.toList.getLast? = some '/' then
      mapping.externalUrl ++ names
    else mapping.externalUrl ++ "/" ++ names
  base ++ fragmentText fragment

/-- The external address of a place in another document, if a mapping
covers it. -/
def externalUrl (s : Scope) (path : AbsolutePath) : Option String :=
  if path.withoutFragment = s.document then none
  else
    match s.config.mappingFor path with
    | none => none
    | some mapping =>
      (path.segmentsBelow mapping.internalPath).map fun below =>
        mappedUrl mapping below path.fragment

/-- The finished target at `path`. -/
def targetAt (s : Scope) (path : AbsolutePath) : Target :=
  .internal
    { absolute := path
      externalUrl := s.externalUrl path
      relative := path.relativeTo s.document }

/-- The target of the anchor `id` of the document itself. -/
def ownAnchor (s : Scope) (id : String) : Target :=
  let path := s.document.withFragment (some id)
  .internal
    { absolute := path
      externalUrl := none
      relative := path.relativeTo s.document }

/-- What keeps a document with the given summary from being the target of
`path`, which is written as `written`. -/
def obstacle (s : Scope) (written : WrittenPath) (path : AbsolutePath)
    (summary : DocumentSummary) : Option Failure :=
  if path.fragment.all summary.anchors.contains then
    if s.config.targetFormats.isSubsetOf summary.formats then none
    else some (.restrictedFormat s.config.targetFormats summary.formats)
  else some (.unresolvedPath written)

/-- Checks `path`, which is written as `written`, against the tree. -/
def checkPath (s : Scope) (tree : TreeIndex) (written : WrittenPath)
    (path : AbsolutePath) : PathOutcome :=
  if tree.isStatic path then .resolved (s.targetAt path)
  else
    match tree.document? path with
    | none => .failed (.unresolvedPath written)
    | some summary =>
      match s.obstacle written path summary with
      | some failure => .failed failure
      | none => .resolved (s.targetAt path)

/-- Where a path written in the document leads. -/
def locate (s : Scope) : WrittenPath → PathResolution
  | .absolute path => .inside path
  | .relative path => s.document.resolveFromDocument path

def resolvePath (s : Scope) (written : WrittenPath) : PathOutcome :=
  match s.locate written with
  | .aboveRoot _ => .resolved (.external written.toText)
  | .inside path =>
    match s.tree with
    | none => .deferred
    | some tree => s.checkPath tree written path

end Scope

end Crosslink
