import Crosslink.Footnote

/-!
# Declarations

What a document declares, listed in document order: anchors, citations,
footnotes, link definitions and aliases. The walk goes into every
container; of an invalidated block only the nested content counts.
-/

namespace Crosslink

/-- Destination and title of a link definition. -/
structure DefinedTarget where
  target : DefinitionTarget
  title : Option String
deriving Repr, DecidableEq

/-- What a named link definition stands for. -/
inductive DefinitionEntry where
  | indirection (id : String)
  | target (defined : DefinedTarget)
deriving Repr, DecidableEq

inductive Declaration where
  | anchor (id : String)
  | citation (label : String)
  | footnote (label : FootnoteLabel)
  | anonymous (defined : DefinedTarget)
  | definition (id : String) (entry : DefinitionEntry)
deriving Repr, DecidableEq

namespace Declaration

def anchors (id : Option String) : List Declaration := id.toList.map anchor

/-- What a link definition declares; without an id it is anonymous. -/
def ofDefinition (d : LinkDefinition) : Declaration :=
  if d.id = "" then anonymous ⟨d.target, d.title⟩
  else definition d.id (.target ⟨d.target, d.title⟩)

end Declaration

mutual

/-- The declarations of a block in document order. -/
def Block.declarations : Block → List Declaration
  | .citation label _ content =>
    .citation label :: Blocks.declarations content
  | .footnoteDefinition label content =>
    .footnote label :: Blocks.declarations content
  | .footnote _ _ content => Blocks.declarations content
  | .invalid fallback _ => fallback.nestedDeclarations
  | .header header => Declaration.anchors header.id
  | .anchor id => [.anchor id]
  | .linkAlias indirection =>
    [.definition indirection.id (.indirection indirection.target)]
  | .linkDefinition definition => [.ofDefinition definition]
  | .quoted content => Blocks.declarations content
  | .sectionOf header content =>
    Declaration.anchors header.id ++ Blocks.declarations content
  | .title title => Declaration.anchors title.id
  | .paragraph _ => []
  | .codeBlock _ _ => []
  | .rule => []
  | .verbatim _ _ => []
  | .decoratedHeader _ => []
  | .reference _ _ => []

/-- The declarations inside an invalidated block. -/
def Block.nestedDeclarations : Block → List Declaration
  | .citation _ _ content => Blocks.declarations content
  | .footnote _ _ content => Blocks.declarations content
  | .footnoteDefinition _ content => Blocks.declarations content
  | .quoted content => Blocks.declarations content
  | .sectionOf _ content => Blocks.declarations content
  | _ => []

def Blocks.declarations : List Block → List Declaration
  | [] => []
  | block :: blocks => block.declarations ++ Blocks.declarations blocks

end

/-- An invalidated block declares what its nested content declares. -/
theorem Block.nestedDeclarations_eq (block : Block) :
    block.nestedDeclarations = Blocks.declarations block.nestedContent := by
  cases block <;>
    simp [Block.nestedDeclarations, Block.nestedContent, Blocks.declarations]

end Crosslink
