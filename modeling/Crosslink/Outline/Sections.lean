import Crosslink.Outline.Levels

/-!
# Sections

The second step of outlining groups the flat sequence of headers and other
blocks into nested sections. A section holds everything up to the next
header of the same or a smaller level. Blocks that are sections already
count as ordinary blocks, so outlining an outlined document changes
nothing (`buildOutline`).
-/

namespace Crosslink

/-- A section made from a header of the sequence. -/
structure OpenSection where
  header : Header
  content : List Block

def OpenSection.toBlock (s : OpenSection) : Block :=
  .sectionOf s.header s.content

/-- A sequence cut at its top-level headers: what stands before the first
one, and the sections they open. -/
structure Sectioning where
  lead : List Block
  sections : List OpenSection

namespace Sectioning

def toBlocks (s : Sectioning) : List Block :=
  s.lead ++ s.sections.map OpenSection.toBlock

/-- Puts a header in front: it takes the leading blocks and the sections
deeper than itself as its content. -/
def openWith (s : Sectioning) (header : Header) : Sectioning :=
  let deeper (t : OpenSection) : Bool := decide (header.level < t.header.level)
  let content := s.lead ++ (s.sections.takeWhile deeper).map OpenSection.toBlock
  ⟨[], ⟨header, content⟩ :: s.sections.dropWhile deeper⟩

def ofBlocks : List Block → Sectioning
  | [] => ⟨[], []⟩
  | .header header :: blocks => (ofBlocks blocks).openWith header
  | block :: blocks =>
    let rest := ofBlocks blocks
    { rest with lead := block :: rest.lead }

end Sectioning

/-- Groups headers and the blocks after them into nested sections. -/
def nestSections (blocks : List Block) : List Block :=
  (Sectioning.ofBlocks blocks).toBlocks

/-- Outlines a document: title, levels, ids and nested sections. -/
def buildOutline (firstHeaderAsTitle : Bool) (blocks : List Block) :
    List Block :=
  nestSections (levelHeaders firstHeaderAsTitle blocks)

end Crosslink
