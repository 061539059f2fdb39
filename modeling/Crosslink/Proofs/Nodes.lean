import Crosslink.Markup.Block

/-!
# The nodes of a document

`nodes` lists every span and every block of a document, however deep it
stands: in quotes, sections and footnotes, in headings, in the text of
links and of references. A node follows everything inside it. The nodes in
the fallback of an invalid node count or not (`Extent`). What the
statements about a resolved document speak of is read off this one list:
its invalid nodes (`Blocks.problems`), the places its links lead to
(`Blocks.internalTargets`), and what is still to be resolved
(`Blocks.pending`).
-/

namespace Crosslink

/-- A span or a block. -/
inductive Node where
  | span (span : Span)
  | block (block : Block)

/-- Which nodes to list. -/
inductive Extent where
  | everywhere
  /-- Not those in the fallback of an invalid node. -/
  | outsideInvalid
deriving DecidableEq

mutual

/-- The nodes at and inside a span. -/
def Span.nodes (extent : Extent) : Span → List Node
  | .text text => [.span (.text text)]
  | .literal text => [.span (.literal text)]
  | .emphasized content =>
    Spans.nodes extent content ++ [.span (.emphasized content)]
  | .strong content => Spans.nodes extent content ++ [.span (.strong content)]
  | .verbatim kind content => [.span (.verbatim kind content)]
  | .reference kind source =>
    kind.nodes extent ++ [.span (.reference kind source)]
  | .link content target title =>
    Spans.nodes extent content ++ [.span (.link content target title)]
  | .image alt target title => [.span (.image alt target title)]
  | .citationLink label reference => [.span (.citationLink label reference)]
  | .footnoteLink id label => [.span (.footnoteLink id label)]
  | .invalid fallback problem =>
    (match extent with
     | .everywhere => fallback.nodes extent
     | .outsideInvalid => [])
      ++ [.span (.invalid fallback problem)]

/-- The nodes in the text of a reference. -/
def ReferenceKind.nodes (extent : Extent) : ReferenceKind → List Node
  | .linkId content _ => Spans.nodes extent content
  | .linkPath content _ _ => Spans.nodes extent content
  | .citation _ => []
  | .footnote _ => []
  | .imageId _ _ => []
  | .imagePath _ _ _ => []

def Spans.nodes (extent : Extent) : List Span → List Node
  | [] => []
  | span :: spans => span.nodes extent ++ Spans.nodes extent spans

end

mutual

def Block.nodes (extent : Extent) : Block → List Node
  | .paragraph content =>
    Spans.nodes extent content ++ [.block (.paragraph content)]
  | .codeBlock code language => [.block (.codeBlock code language)]
  | .rule => [.block .rule]
  | .verbatim kind content => [.block (.verbatim kind content)]
  | .header header =>
    Spans.nodes extent header.content ++ [.block (.header header)]
  | .decoratedHeader header =>
    Spans.nodes extent header.content ++ [.block (.decoratedHeader header)]
  | .title title => Spans.nodes extent title.content ++ [.block (.title title)]
  | .sectionOf header content =>
    Spans.nodes extent header.content
      ++ (Blocks.nodes extent content ++ [.block (.sectionOf header content)])
  | .quoted content => Blocks.nodes extent content ++ [.block (.quoted content)]
  | .anchor id => [.block (.anchor id)]
  | .linkDefinition definition => [.block (.linkDefinition definition)]
  | .linkAlias indirection => [.block (.linkAlias indirection)]
  | .citation label id content =>
    Blocks.nodes extent content ++ [.block (.citation label id content)]
  | .footnoteDefinition label content =>
    Blocks.nodes extent content ++ [.block (.footnoteDefinition label content)]
  | .footnote id label content =>
    Blocks.nodes extent content ++ [.block (.footnote id label content)]
  | .reference kind source =>
    kind.nodes extent ++ [.block (.reference kind source)]
  | .invalid fallback problem =>
    (match extent with
     | .everywhere => fallback.nodes extent
     | .outsideInvalid => [])
      ++ [.block (.invalid fallback problem)]

def Blocks.nodes (extent : Extent) : List Block → List Node
  | [] => []
  | block :: blocks => block.nodes extent ++ Blocks.nodes extent blocks

end

theorem Blocks.nodes_append (extent : Extent) (first second : List Block) :
    Blocks.nodes extent (first ++ second)
      = Blocks.nodes extent first ++ Blocks.nodes extent second := by
  induction first with
  | nil => rfl
  | cons block first ih => simp [Blocks.nodes, ih]

/-! ## Reading something off the nodes -/

section

variable {α : Type} (f : Node → Option α) (extent : Extent)

def Span.collect (span : Span) : List α := (span.nodes extent).filterMap f

def ReferenceKind.collect (kind : ReferenceKind) : List α :=
  (kind.nodes extent).filterMap f

def Spans.collect (spans : List Span) : List α :=
  (Spans.nodes extent spans).filterMap f

def Block.collect (block : Block) : List α := (block.nodes extent).filterMap f

/-- What `f` reads off the nodes of a sequence of blocks. -/
def Blocks.collect (blocks : List Block) : List α :=
  (Blocks.nodes extent blocks).filterMap f

theorem filterMap_append_one (nodes : List Node) (node : Node) :
    (nodes ++ [node]).filterMap f = nodes.filterMap f ++ (f node).toList := by
  rw [List.filterMap_append]
  cases h : f node <;> simp [h]

@[simp] theorem Span.collect_text (text : String) :
    (Span.text text).collect f extent = (f (.span (.text text))).toList :=
  filterMap_append_one f [] _

@[simp] theorem Span.collect_literal (text : String) :
    (Span.literal text).collect f extent = (f (.span (.literal text))).toList :=
  filterMap_append_one f [] _

@[simp] theorem Span.collect_emphasized (content : List Span) :
    (Span.emphasized content).collect f extent
      = Spans.collect f extent content
        ++ (f (.span (.emphasized content))).toList :=
  filterMap_append_one f _ _

@[simp] theorem Span.collect_strong (content : List Span) :
    (Span.strong content).collect f extent
      = Spans.collect f extent content ++ (f (.span (.strong content))).toList :=
  filterMap_append_one f _ _

@[simp] theorem Span.collect_verbatim (kind content : String) :
    (Span.verbatim kind content).collect f extent
      = (f (.span (.verbatim kind content))).toList :=
  filterMap_append_one f [] _

@[simp] theorem Span.collect_reference (kind : ReferenceKind) (source : String) :
    (Span.reference kind source).collect f extent
      = kind.collect f extent ++ (f (.span (.reference kind source))).toList :=
  filterMap_append_one f _ _

@[simp] theorem Span.collect_link (content : List Span) (target : Target)
    (title : Option String) :
    (Span.link content target title).collect f extent
      = Spans.collect f extent content
        ++ (f (.span (.link content target title))).toList :=
  filterMap_append_one f _ _

@[simp] theorem Span.collect_image (alt : String) (target : Target)
    (title : Option String) :
    (Span.image alt target title).collect f extent
      = (f (.span (.image alt target title))).toList :=
  filterMap_append_one f [] _

@[simp] theorem Span.collect_citationLink (label reference : String) :
    (Span.citationLink label reference).collect f extent
      = (f (.span (.citationLink label reference))).toList :=
  filterMap_append_one f [] _

@[simp] theorem Span.collect_footnoteLink (id label : String) :
    (Span.footnoteLink id label).collect f extent
      = (f (.span (.footnoteLink id label))).toList :=
  filterMap_append_one f [] _

@[simp] theorem Span.collect_invalid_everywhere (fallback : Span)
    (problem : Problem) :
    (Span.invalid fallback problem).collect f .everywhere
      = fallback.collect f .everywhere
        ++ (f (.span (.invalid fallback problem))).toList :=
  filterMap_append_one f _ _

@[simp] theorem Span.collect_invalid_outsideInvalid (fallback : Span)
    (problem : Problem) :
    (Span.invalid fallback problem).collect f .outsideInvalid
      = (f (.span (.invalid fallback problem))).toList :=
  filterMap_append_one f [] _

@[simp] theorem ReferenceKind.collect_linkId (content : List Span) (id : String) :
    (ReferenceKind.linkId content id).collect f extent
      = Spans.collect f extent content := rfl

@[simp] theorem ReferenceKind.collect_linkPath (content : List Span)
    (path : WrittenPath) (title : Option String) :
    (ReferenceKind.linkPath content path title).collect f extent
      = Spans.collect f extent content := rfl

@[simp] theorem ReferenceKind.collect_citation (label : String) :
    (ReferenceKind.citation label).collect f extent = [] := rfl

@[simp] theorem ReferenceKind.collect_footnote (label : FootnoteLabel) :
    (ReferenceKind.footnote label).collect f extent = [] := rfl

@[simp] theorem ReferenceKind.collect_imageId (alt id : String) :
    (ReferenceKind.imageId alt id).collect f extent = [] := rfl

@[simp] theorem ReferenceKind.collect_imagePath (alt : String)
    (path : WrittenPath) (title : Option String) :
    (ReferenceKind.imagePath alt path title).collect f extent = [] := rfl

@[simp] theorem Spans.collect_nil : Spans.collect f extent [] = [] := rfl

@[simp] theorem Spans.collect_cons (span : Span) (spans : List Span) :
    Spans.collect f extent (span :: spans)
      = span.collect f extent ++ Spans.collect f extent spans :=
  List.filterMap_append

theorem Spans.collect_eq_nil_iff {spans : List Span} :
    Spans.collect f extent spans = []
      ↔ ∀ span ∈ spans, span.collect f extent = [] := by
  induction spans with
  | nil => simp
  | cons span spans ih => simp [ih]

theorem Spans.mem_collect_iff {spans : List Span} {a : α} :
    a ∈ Spans.collect f extent spans ↔ ∃ span ∈ spans, a ∈ span.collect f extent := by
  induction spans with
  | nil => simp
  | cons span spans ih => simp [ih]

@[simp] theorem Block.collect_paragraph (content : List Span) :
    (Block.paragraph content).collect f extent
      = Spans.collect f extent content
        ++ (f (.block (.paragraph content))).toList :=
  filterMap_append_one f _ _

@[simp] theorem Block.collect_codeBlock (code : String)
    (language : Option String) :
    (Block.codeBlock code language).collect f extent
      = (f (.block (.codeBlock code language))).toList :=
  filterMap_append_one f [] _

@[simp] theorem Block.collect_rule :
    Block.rule.collect f extent = (f (.block .rule)).toList :=
  filterMap_append_one f [] _

@[simp] theorem Block.collect_verbatim (kind content : String) :
    (Block.verbatim kind content).collect f extent
      = (f (.block (.verbatim kind content))).toList :=
  filterMap_append_one f [] _

@[simp] theorem Block.collect_header (header : Header) :
    (Block.header header).collect f extent
      = Spans.collect f extent header.content
        ++ (f (.block (.header header))).toList :=
  filterMap_append_one f _ _

@[simp] theorem Block.collect_decoratedHeader (header : DecoratedHeader) :
    (Block.decoratedHeader header).collect f extent
      = Spans.collect f extent header.content
        ++ (f (.block (.decoratedHeader header))).toList :=
  filterMap_append_one f _ _

@[simp] theorem Block.collect_title (title : Title) :
    (Block.title title).collect f extent
      = Spans.collect f extent title.content
        ++ (f (.block (.title title))).toList :=
  filterMap_append_one f _ _

@[simp] theorem Block.collect_sectionOf (header : Header)
    (content : List Block) :
    (Block.sectionOf header content).collect f extent
      = Spans.collect f extent header.content ++ (Blocks.collect f extent content
        ++ (f (.block (.sectionOf header content))).toList) :=
  List.filterMap_append.trans
    (congrArg (Spans.collect f extent header.content ++ ·)
      (filterMap_append_one f _ _))

@[simp] theorem Block.collect_quoted (content : List Block) :
    (Block.quoted content).collect f extent
      = Blocks.collect f extent content
        ++ (f (.block (.quoted content))).toList :=
  filterMap_append_one f _ _

@[simp] theorem Block.collect_anchor (id : String) :
    (Block.anchor id).collect f extent = (f (.block (.anchor id))).toList :=
  filterMap_append_one f [] _

@[simp] theorem Block.collect_linkDefinition (definition : LinkDefinition) :
    (Block.linkDefinition definition).collect f extent
      = (f (.block (.linkDefinition definition))).toList :=
  filterMap_append_one f [] _

@[simp] theorem Block.collect_linkAlias (indirection : LinkAlias) :
    (Block.linkAlias indirection).collect f extent
      = (f (.block (.linkAlias indirection))).toList :=
  filterMap_append_one f [] _

@[simp] theorem Block.collect_citation (label : String) (id : Option String)
    (content : List Block) :
    (Block.citation label id content).collect f extent
      = Blocks.collect f extent content
        ++ (f (.block (.citation label id content))).toList :=
  filterMap_append_one f _ _

@[simp] theorem Block.collect_footnoteDefinition (label : FootnoteLabel)
    (content : List Block) :
    (Block.footnoteDefinition label content).collect f extent
      = Blocks.collect f extent content
        ++ (f (.block (.footnoteDefinition label content))).toList :=
  filterMap_append_one f _ _

@[simp] theorem Block.collect_footnote (id label : String)
    (content : List Block) :
    (Block.footnote id label content).collect f extent
      = Blocks.collect f extent content
        ++ (f (.block (.footnote id label content))).toList :=
  filterMap_append_one f _ _

@[simp] theorem Block.collect_reference (kind : ReferenceKind)
    (source : String) :
    (Block.reference kind source).collect f extent
      = kind.collect f extent ++ (f (.block (.reference kind source))).toList :=
  filterMap_append_one f _ _

@[simp] theorem Block.collect_invalid_everywhere (fallback : Block)
    (problem : Problem) :
    (Block.invalid fallback problem).collect f .everywhere
      = fallback.collect f .everywhere
        ++ (f (.block (.invalid fallback problem))).toList :=
  filterMap_append_one f _ _

@[simp] theorem Block.collect_invalid_outsideInvalid (fallback : Block)
    (problem : Problem) :
    (Block.invalid fallback problem).collect f .outsideInvalid
      = (f (.block (.invalid fallback problem))).toList :=
  filterMap_append_one f [] _

@[simp] theorem Blocks.collect_nil : Blocks.collect f extent [] = [] := rfl

@[simp] theorem Blocks.collect_cons (block : Block) (blocks : List Block) :
    Blocks.collect f extent (block :: blocks)
      = block.collect f extent ++ Blocks.collect f extent blocks :=
  List.filterMap_append

@[simp] theorem Blocks.collect_append (first second : List Block) :
    Blocks.collect f extent (first ++ second)
      = Blocks.collect f extent first ++ Blocks.collect f extent second := by
  rw [collect, Blocks.nodes_append, List.filterMap_append]
  rfl

end

section

variable {α : Type} {f : Node → Option α}

mutual

theorem Span.collect_of_blocks (h : ∀ span, f (.span span) = none)
    (extent : Extent) : ∀ span : Span, span.collect f extent = []
  | .emphasized content => by simp [h, Spans.collect_of_blocks h extent content]
  | .strong content => by simp [h, Spans.collect_of_blocks h extent content]
  | .link content _ _ => by simp [h, Spans.collect_of_blocks h extent content]
  | .reference kind _ => by
      simp [h, ReferenceKind.collect_of_blocks h extent kind]
  | .invalid fallback _ => by
      have hfallback := Span.collect_of_blocks h extent fallback
      cases extent <;> simp [h, hfallback]
  | .text _ | .literal _ | .verbatim _ _ | .image _ _ _ | .citationLink _ _
  | .footnoteLink _ _ => by simp [h]

theorem ReferenceKind.collect_of_blocks (h : ∀ span, f (.span span) = none)
    (extent : Extent) : ∀ kind : ReferenceKind, kind.collect f extent = []
  | .linkId content _ => Spans.collect_of_blocks h extent content
  | .linkPath content _ _ => Spans.collect_of_blocks h extent content
  | .citation _ | .footnote _ | .imageId _ _ | .imagePath _ _ _ => rfl

/-- What is read off blocks only is not found in running text. -/
theorem Spans.collect_of_blocks (h : ∀ span, f (.span span) = none)
    (extent : Extent) : ∀ spans : List Span, Spans.collect f extent spans = []
  | [] => rfl
  | span :: spans => by
      rw [Spans.collect_cons, Span.collect_of_blocks h extent span,
        Spans.collect_of_blocks h extent spans, List.nil_append]

end

end

/-! ## Invalid nodes -/

@[simp] def Node.problem? : Node → Option Problem
  | .span (.invalid _ problem) => some problem
  | .block (.invalid _ problem) => some problem
  | _ => none

abbrev Span.problems (span : Span) : List Problem :=
  span.collect Node.problem? .everywhere

abbrev ReferenceKind.problems (kind : ReferenceKind) : List Problem :=
  kind.collect Node.problem? .everywhere

abbrev Spans.problems (spans : List Span) : List Problem :=
  Spans.collect Node.problem? .everywhere spans

abbrev Block.problems (block : Block) : List Problem :=
  block.collect Node.problem? .everywhere

/-- The problems of the invalid nodes of a sequence of blocks, those inside
a node before its own. -/
abbrev Blocks.problems (blocks : List Block) : List Problem :=
  Blocks.collect Node.problem? .everywhere blocks

/-! ## Where links lead -/

/-- The place of a target, if it is inside the tree. -/
def Target.internal? : Target → Option InternalTarget
  | .external _ => none
  | .internal target => some target

/-- The place inside the tree that a link or an image leads to. -/
@[simp] def Node.internalTarget? : Node → Option InternalTarget
  | .span (.link _ target _) => target.internal?
  | .span (.image _ target _) => target.internal?
  | _ => none

/-- The places inside the tree that the links and images of a sequence of
blocks lead to. -/
abbrev Blocks.internalTargets (blocks : List Block) : List InternalTarget :=
  Blocks.collect Node.internalTarget? .everywhere blocks

/-! ## What is still to be resolved -/

/-- The node, if it has to disappear in the course of resolution. -/
@[simp] def Node.pending? : Node → Option Node
  | .span (.reference kind source) => some (.span (.reference kind source))
  | .block (.reference kind source) => some (.block (.reference kind source))
  | .block (.linkDefinition definition) =>
    some (.block (.linkDefinition definition))
  | .block (.linkAlias indirection) => some (.block (.linkAlias indirection))
  | .block (.footnoteDefinition label content) =>
    some (.block (.footnoteDefinition label content))
  | .block (.decoratedHeader header) => some (.block (.decoratedHeader header))
  | _ => none

/-- The nodes of a span still to be resolved. Invalid nodes are final. -/
abbrev Span.pending (span : Span) : List Node :=
  span.collect Node.pending? .outsideInvalid

abbrev ReferenceKind.pending (kind : ReferenceKind) : List Node :=
  kind.collect Node.pending? .outsideInvalid

abbrev Spans.pending (spans : List Span) : List Node :=
  Spans.collect Node.pending? .outsideInvalid spans

abbrev Block.pending (block : Block) : List Node :=
  block.collect Node.pending? .outsideInvalid

abbrev Blocks.pending (blocks : List Block) : List Node :=
  Blocks.collect Node.pending? .outsideInvalid blocks

end Crosslink
