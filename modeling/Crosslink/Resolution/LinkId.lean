import Crosslink.Resolution.Target

/-!
# Link ids

A link id is looked up in this order: the definitions and aliases of the
document, its anchors, the configured global targets, the anchors of other
documents, nearest tree first. An alias passes the search on to another
id (`follow`); going round in circles and very long chains end it.

Outcomes are remembered for the rest of the pass, except that a search
went round in a circle or did not end: what is reported then depends on
the id it started from.
-/

namespace Crosslink

/-- Where a link id leads. -/
inductive Destination where
  | external (url : String) (title : Option String)
  /-- A path still to be resolved. -/
  | path (path : WrittenPath) (title : Option String)
  | target (target : Target)
deriving Repr, DecidableEq

/-- What became of a link id. -/
inductive IdOutcome where
  | found (destination : Destination)
  /-- The tree has to be known first; `id` is the end of the alias chain. -/
  | deferred (id : String)
  /-- Nothing is called `id`, the end of the alias chain. -/
  | missing (id : String)
  | failed (failure : Failure)
deriving Repr, DecidableEq

/-- Outcomes known from earlier searches. -/
abbrev IdCache := List (String × IdOutcome)

/-- Whether a search ended in the aliases. -/
def IdOutcome.isAliasLoop : IdOutcome → Bool
  | .failed failure => failure.isAliasLoop
  | _ => false

/-- Where a link definition leads. -/
def DefinedTarget.destination (d : DefinedTarget) : Destination :=
  match d.target with
  | .external url => .external url d.title
  | .internal path => .path path d.title

def GlobalTarget.destination : GlobalTarget → Destination
  | .external url => .external url none
  | .internal path => .path (.absolute path) none

namespace Scope

/-! ## One id -/

/-- The id that `id` stands for, if it is declared once, as an alias. -/
def aliasTarget? (s : Scope) (id : String) : Option String :=
  match s.index.linkDefinitions.entry? id with
  | some (.unique (.indirection target)) => some target
  | _ => none

/-- The search beyond the document: global targets, then other documents. -/
def searchTree (s : Scope) (tree : TreeIndex) (id : String) : IdOutcome :=
  match s.config.globalTargets.get? id with
  | some target => .found target.destination
  | none =>
    match tree.findAnchor id s.document with
    | .found path => .found (.path (.absolute path) none)
    | .duplicate scope => .failed (.duplicateTarget id scope)
    | .missing => .missing id

/-- The search among the anchors of the document, then beyond it. -/
def searchAnchors (s : Scope) (id : String) : IdOutcome :=
  match s.index.anchors.entry? id with
  | some .duplicate => .failed (.duplicateTarget id s.document)
  | some (.unique _) => .found (.target (s.ownAnchor id))
  | none =>
    match s.tree with
    | none => .deferred id
    | some tree => s.searchTree tree id

/-- The outcome of an id that is not an alias. -/
def outcomeOf (s : Scope) (id : String) : IdOutcome :=
  match s.index.linkDefinitions.entry? id with
  | some .duplicate => .failed (.duplicateDefinition id s.document)
  | some (.unique (.target defined)) => .found defined.destination
  | _ => s.searchAnchors id

/-! ## Chains of aliases -/

/-- An outcome that needs no further search: a remembered one, or that
`id` is being followed already. -/
def settled (cache : IdCache) (active : List String) (id : String) :
    Option IdOutcome :=
  match cache.lookup id with
  | some outcome => some outcome
  | none =>
    if id ∈ active then some (.failed (.circularAlias id)) else none

/-- Keeps an outcome unless it ended in the aliases. -/
def remember (cache : IdCache) (id : String) (outcome : IdOutcome) : IdCache :=
  if outcome.isAliasLoop then cache else (id, outcome) :: cache

/-- Follows aliases from `id` on for at most `room` more ids; `active`
holds the ids passed on the way. -/
def follow (s : Scope) (active : List String) :
    (room : Nat) → (id : String) → IdCache → IdOutcome × IdCache
  | 0, id, cache =>
    ((settled cache active id).getD (.failed (.aliasChainTooLong id)), cache)
  | room + 1, id, cache =>
    match settled cache active id with
    | some outcome => (outcome, cache)
    | none =>
      match s.aliasTarget? id with
      | some target =>
        let (outcome, cache) := follow s (id :: active) room target cache
        (outcome, remember cache id outcome)
      | none =>
        let outcome := s.outcomeOf id
        (outcome, remember cache id outcome)

def lookUp (s : Scope) (id : String) (cache : IdCache) : IdOutcome × IdCache :=
  s.follow [] Failure.maxAliasDepth id cache

end Scope

end Crosslink
