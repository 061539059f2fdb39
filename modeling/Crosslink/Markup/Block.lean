import Crosslink.Markup.Span

/-!
# Block nodes

A document is a sequence of blocks. Headers come with a level or with a
decoration that implies one, and outlining turns them into a title and
nested sections. Citations, footnote definitions, link definitions,
aliases and explicit anchors declare the targets of references. A target
that cannot be used becomes an invalid block around it.

`nestedContent` names the blocks inside an invalidated block: they keep
their own targets although the block around them lost its id.
-/

namespace Crosslink

/-- A header with a level, 1 for the outermost. -/
structure Header where
  content : List Span
  id : Option String
  level : Nat
deriving Inhabited

/-- Written levels are below this: they fit into 64 bits. -/
def Header.levelLimit : Nat := 18446744073709551616

/-- The marker line of a decorated header. -/
structure Decoration where
  symbol : Char
  overline : Bool
deriving Repr, DecidableEq

/-- A header whose decoration stands for a level. -/
structure DecoratedHeader where
  content : List Span
  decoration : Decoration
  id : Option String

/-- The title of a document. -/
structure Title where
  content : List Span
  id : Option String

/-- Where a link definition points. -/
inductive DefinitionTarget where
  | external (url : String)
  | internal (path : WrittenPath)
deriving Repr, DecidableEq

/-- A link destination declared in a document; an empty id makes it
anonymous. -/
structure LinkDefinition where
  id : String
  target : DefinitionTarget
  title : Option String
deriving Repr, DecidableEq

/-- References to `id` resolve as references to `target`. -/
structure LinkAlias where
  id : String
  target : String
deriving Repr, DecidableEq

/-- A block node. -/
inductive Block where
  | paragraph (content : List Span)
  | codeBlock (code : String) (language : Option String)
  | rule
  | verbatim (kind : String) (content : String)
  | header (header : Header)
  | decoratedHeader (header : DecoratedHeader)
  | title (title : Title)
  | sectionOf (header : Header) (content : List Block)
  | quoted (content : List Block)
  | anchor (id : String)
  | linkDefinition (definition : LinkDefinition)
  | linkAlias (indirection : LinkAlias)
  | citation (label : String) (id : Option String) (content : List Block)
  | footnoteDefinition (label : FootnoteLabel) (content : List Block)
  | footnote (id : String) (label : String) (content : List Block)
  | reference (kind : ReferenceKind) (source : String)
  | invalid (fallback : Block) (problem : Problem)

instance : Inhabited Block := ⟨.rule⟩

/-- The blocks inside an invalidated block that stay in use. -/
def Block.nestedContent : Block → List Block
  | .citation _ _ content => content
  | .footnote _ _ content => content
  | .footnoteDefinition _ content => content
  | .quoted content => content
  | .sectionOf _ content => content
  | _ => []

/-- The first title among the top-level blocks of a document. -/
def Blocks.title? : List Block → Option Title
  | [] => none
  | .title title :: _ => some title
  | _ :: blocks => Blocks.title? blocks

end Crosslink
