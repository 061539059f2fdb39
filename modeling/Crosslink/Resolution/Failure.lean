import Crosslink.Config.Formats
import Crosslink.Problem

/-!
# Failures

Why a reference or a target cannot be used. Resolution works with these
causes; `problem` gives each its kind and its message for the user.
-/

namespace Crosslink

/-- A cause for an invalid node. -/
inductive Failure where
  /-- Following aliases leads back to `id`. -/
  | circularAlias (id : String)
  /-- The alias chain is still not at its end at `id`. -/
  | aliasChainTooLong (id : String)
  /-- `id` names more than one anchor, citation or footnote within `scope`. -/
  | duplicateTarget (id : String) (scope : AbsolutePath)
  /-- `id` names more than one link definition or alias of `document`. -/
  | duplicateDefinition (id : String) (document : AbsolutePath)
  /-- A document for `source` refers to a document for fewer formats. -/
  | restrictedFormat (source destination : TargetFormats)
  | anonymousExhausted
  | autonumbersExhausted
  | autosymbolsExhausted
  | unresolvedLink (id : String)
  | unresolvedImage (id : String)
  | unresolvedPath (path : WrittenPath)
  | unresolvedFootnote (label : String)
  | unresolvedCitation (label : String)
  | emptyCitation
  | emptyCitationReference
  | emptyFootnote
  | emptyFootnoteReference
deriving Repr, DecidableEq

namespace Failure

/-- Longest chain of link ids that is followed. -/
def maxAliasDepth : Nat := 64

def kind : Failure → ProblemKind
  | circularAlias _ => .circularAlias
  | aliasChainTooLong _ => .aliasChainTooLong
  | duplicateTarget _ _ => .duplicateIdentifier
  | duplicateDefinition _ _ => .duplicateIdentifier
  | restrictedFormat _ _ => .restrictedFormat
  | anonymousExhausted => .tooManyAnonymous
  | autonumbersExhausted => .tooManyAutonumber
  | autosymbolsExhausted => .tooManyAutosymbol
  | unresolvedLink _ => .unresolved
  | unresolvedImage _ => .unresolved
  | unresolvedPath _ => .unresolved
  | unresolvedFootnote _ => .unresolved
  | unresolvedCitation _ => .unresolved
  | emptyCitation => .unresolved
  | emptyCitationReference => .unresolved
  | emptyFootnote => .unresolved
  | emptyFootnoteReference => .unresolved

/-- The message for a document that reaches into one for fewer formats. -/
def restrictedMessage : (source destination : TargetFormats) → String
  | .all, _ =>
    "document for all output formats cannot reference a document with restricted output formats"
  | .only names, destination =>
    "document with output formats " ++ (TargetFormats.only names).describe
      ++ " cannot reference a document restricted to "
      ++ destination.describe

def message : Failure → String
  | circularAlias id => "circular link reference: " ++ id
  | aliasChainTooLong id =>
    "link alias chain exceeds " ++ toString maxAliasDepth ++ " steps at id: "
      ++ id
  | duplicateTarget id scope =>
    "More than one link target with id '" ++ id ++ "' in path " ++ scope.toText
  | duplicateDefinition id document =>
    "More than one link definition with id '" ++ id ++ "' in path "
      ++ document.toText
  | restrictedFormat source destination =>
    restrictedMessage source destination
  | anonymousExhausted => "too many anonymous references"
  | autonumbersExhausted => "too many autonumber references"
  | autosymbolsExhausted => "too many autosymbol references"
  | unresolvedLink id => "unresolved link id reference: " ++ id
  | unresolvedImage id => "unresolved image id reference: " ++ id
  | unresolvedPath path => "unresolved internal reference: " ++ path.toText
  | unresolvedFootnote label => "unresolved footnote reference: " ++ label
  | unresolvedCitation label => "unresolved citation reference: " ++ label
  | emptyCitation => "citation with empty label"
  | emptyCitationReference => "citation reference with empty label"
  | emptyFootnote => "footnote definition with empty label"
  | emptyFootnoteReference => "footnote reference with empty label"

def problem (f : Failure) : Problem := ⟨f.kind, f.message⟩

/-- Whether following aliases ran in a circle or did not end. -/
def isAliasLoop : Failure → Bool
  | circularAlias _ => true
  | aliasChainTooLong _ => true
  | _ => false

end Failure

end Crosslink
