import Crosslink.Outline.Slug

/-!
# Levels, title and ids of headers

The first step of outlining works on the top-level blocks of a document.
If asked to, it turns the first header into the title. Decorated headers
become plain headers: a decoration stands for level 1 if it is the first
one met, for level 2 if it is the second, and so on. Every header and the
title end up with an id.
-/

namespace Crosslink

/-- What is known while the top-level blocks are walked. -/
structure Leveling where
  /-- The next header becomes the title. -/
  titlePending : Bool
  /-- Decorations in the order of their first appearance. -/
  decorations : List Decoration
  /-- Ids in use. -/
  used : List String

namespace Leveling

/-- Keeps an explicit id or derives a fresh one. -/
def assign (s : Leveling) (explicit : Option String) (content : List Span) :
    String × Leveling :=
  match explicit with
  | some id => (id, s)
  | none =>
    let id := freshId s.used (slugBase content)
    (id, { s with used := id :: s.used })

def level (s : Leveling) (decoration : Decoration) : Nat × Leveling :=
  if decoration ∈ s.decorations then (s.decorations.idxOf decoration + 1, s)
  else
    (s.decorations.length + 1,
     { s with decorations := s.decorations ++ [decoration] })

/-- Makes the title out of a header. -/
def promote (s : Leveling) (content : List Span) (id : Option String) :
    Block × Leveling :=
  let (id, s) := { s with titlePending := false }.assign id content
  (.title ⟨content, some id⟩, s)

def step (s : Leveling) : Block → Block × Leveling
  | .header header =>
    if s.titlePending then s.promote header.content header.id
    else
      let (id, s) := s.assign header.id header.content
      (.header { header with id := some id }, s)
  | .decoratedHeader header =>
    if s.titlePending then s.promote header.content header.id
    else
      let (level, s) := s.level header.decoration
      let (id, s) := s.assign header.id header.content
      (.header ⟨header.content, some id, level⟩, s)
  | block => (block, s)

/-- All top-level blocks, from the first to the last. -/
def run (s : Leveling) : List Block → List Block
  | [] => []
  | block :: blocks =>
    let (block, s) := s.step block
    block :: s.run blocks

end Leveling

/-- Gives the headers of a document their level, title and id. -/
def levelHeaders (firstHeaderAsTitle : Bool) (blocks : List Block) :
    List Block :=
  let start : Leveling :=
    { titlePending := firstHeaderAsTitle && (Blocks.title? blocks).isNone
      decorations := []
      used := Blocks.explicitIds blocks }
  start.run blocks

end Crosslink
