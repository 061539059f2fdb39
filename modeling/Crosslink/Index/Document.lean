import Crosslink.Index.Declaration

/-!
# Index of one document

The declarations of a document, sorted into namespaces. An identifier
declared more than once in a namespace is unusable there; `entry?` tells
the three cases apart. Link definitions and aliases share a namespace.
-/

namespace Crosslink

/-- Look-up result for one identifier. -/
inductive Entry (α : Type) where
  | unique (value : α)
  | duplicate
deriving Repr, DecidableEq

/-- Identifiers of one kind, each as often as it is declared, in document
order. -/
structure Namespace (α : Type) where
  declared : List (String × α)
deriving Repr, DecidableEq

namespace Namespace

variable {α : Type}

/-- The values declared under `id`, in order. -/
def values (ns : Namespace α) (id : String) : List α :=
  ns.declared.filterMap fun (key, value) =>
    if key = id then some value else none

/-- The entry of `id`, if it is declared. -/
def entry? (ns : Namespace α) (id : String) : Option (Entry α) :=
  match ns.values id with
  | [] => none
  | [value] => some (.unique value)
  | _ :: _ :: _ => some .duplicate

/-- Whether `id` is declared more than once. -/
def isDuplicate (ns : Namespace α) (id : String) : Bool :=
  match ns.entry? id with
  | some .duplicate => true
  | _ => false

/-- A namespace of bare identifiers. -/
def ofNames (names : List String) : Namespace Unit :=
  ⟨names.map fun name => (name, ())⟩

end Namespace

/-- The targets declared in one document. -/
structure DocumentIndex where
  anchors : Namespace Unit
  citations : Namespace Unit
  numericFootnotes : Namespace Unit
  labelledFootnotes : Namespace Unit
  linkDefinitions : Namespace DefinitionEntry
  anonymous : List DefinedTarget
  footnotes : FootnoteNumbering

namespace Declaration

def anchor? : Declaration → Option String
  | anchor id => some id
  | _ => none

def citation? : Declaration → Option String
  | citation label => some label
  | _ => none

def footnote? : Declaration → Option FootnoteLabel
  | footnote label => some label
  | _ => none

def number? : Declaration → Option String
  | footnote (.numeric number) => some (toString number)
  | _ => none

def labelled? : Declaration → Option String
  | footnote (.labelled label) => some label
  | _ => none

/-- A named link definition or alias. -/
def definition? : Declaration → Option (String × DefinitionEntry)
  | definition id entry => some (id, entry)
  | _ => none

def anonymous? : Declaration → Option DefinedTarget
  | anonymous defined => some defined
  | _ => none

end Declaration

def DocumentIndex.ofDeclarations (ds : List Declaration) : DocumentIndex where
  anchors := .ofNames (ds.filterMap Declaration.anchor?)
  citations := .ofNames (ds.filterMap Declaration.citation?)
  numericFootnotes := .ofNames (ds.filterMap Declaration.number?)
  labelledFootnotes := .ofNames (ds.filterMap Declaration.labelled?)
  linkDefinitions := ⟨ds.filterMap Declaration.definition?⟩
  anonymous := ds.filterMap Declaration.anonymous?
  footnotes := .assign (ds.filterMap Declaration.footnote?)

/-- The index of a document. -/
def DocumentIndex.build (blocks : List Block) : DocumentIndex :=
  .ofDeclarations (Blocks.declarations blocks)

end Crosslink
