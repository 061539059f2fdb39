import Crosslink.Markdown.SourceBlock
import Crosslink.Markdown.Unfinished

/-!
# Open containers

Quotes and list items hold other blocks. A line passes the open containers
from the outside in (`passFrames`) and may open more of them
(`openFrames`).

Lists are kept as they are. Their items are followed all the same, because
they decide which lines belong to the list.
-/

namespace Crosslink.Markdown

structure OpenItem where
  /-- Columns that later lines are indented by. -/
  indent : Nat
  /-- Nothing but its marker was seen. -/
  bare : Bool
deriving Repr, DecidableEq

/-- An open container. -/
inductive Frame where
  /-- A quote with its finished blocks, latest first. -/
  | quote (content : List SourceBlock)
  /-- A list with its source so far, latest piece first. After a bare item
  and a blank line no item is open. -/
  | list (symbol : Char) (item : Option OpenItem)
      (pieces : List (List Char))

namespace Frame

def isQuote : Frame → Bool
  | quote _ => true
  | list _ _ _ => false

/-- Passes the container's part of a line. -/
def pass? (p : Position) : Frame → Option Position
  | quote _ => quoteMarker? p
  | list _ (some item) _ =>
    if p.isBlank then some p
    else if item.indent ≤ p.indent then some (p.skip item.indent)
    else none
  | list _ none _ => none

/-- Where the rest of a line begins that does not pass the container. Its
indentation was tried in vain, unless no line can pass. -/
def missed (p : Position) : Frame → Position
  | list _ none _ => p
  | _ => p.passIndent

/-- A line that was passed belongs to the container. -/
def note (line : ContentLine) : Frame → Frame
  | quote content => quote content
  | list symbol item pieces =>
    let item := item.bind fun ⟨indent, bare⟩ =>
      if bare && line.isBlank then none else some ⟨indent, false⟩
    list symbol item (line.full :: pieces)

/-- A finished block belongs to the container. -/
def add (blocks : List SourceBlock) : Frame → Frame
  | quote content => quote (blocks.reverse ++ content)
  | list symbol item pieces => list symbol item pieces

/-- The block of a container that ends before a line. -/
def close (lead : List Char) : Frame → SourceBlock
  | quote content => .quote content.reverse
  | list _ _ pieces => .verbatim "list" (pieces.reverse.flatten ++ lead)

/-- The container without what was read in it. -/
def emptied : Frame → Option (Char × Option OpenItem)
  | quote _ => none
  | list symbol item _ => some (symbol, item)

def itemOf (marker : ListMarker) : OpenItem := ⟨marker.indent, marker.bare⟩

def nextItem? (line : ContentLine) : Frame → Option (Frame × Position)
  | quote _ => none
  | list symbol _ pieces =>
    if 3 < line.indent ∨ isThematicBreak line ∨ isUnfinishedItem line then
      none
    else
      match listMarker? line with
      | some (marker, q) =>
        if marker.symbol = symbol then
          some (list symbol (some (itemOf marker)) (line.full :: pieces), q)
        else none
      | none => none

end Frame

/-- Passes as many containers as the line reaches, from the outside in:
these, the others, and the place after them. -/
def passFrames (p : Position) :
    List Frame → List Frame × List Frame × Position
  | [] => ([], [], p)
  | frame :: frames =>
    match frame.pass? p with
    | none => ([], frame :: frames, frame.missed p)
    | some q =>
      let (passed, missed, r) := passFrames q frames
      (frame :: passed, missed, r)

/-- The containers that the rest of a line opens, from the outside in, and
the line after their markers. -/
def openFrames (line : ContentLine) : List Frame × ContentLine :=
  if 4 ≤ line.indent ∨ isThematicBreak line ∨ isUnfinishedItem line then
    ([], line)
  else
    match hquote : quoteMarker? line.place with
    | some q =>
      have := length_quoteMarker?_lt hquote
      let (frames, rest) := openFrames { line with place := q }
      (.quote [] :: frames, rest)
    | none =>
      match hlist : listMarker? line with
      | some (marker, q) =>
        have := length_listMarker?_lt hlist
        let (frames, rest) := openFrames { line with place := q }
        (.list marker.symbol (some (Frame.itemOf marker)) [line.body]
          :: frames, rest)
      | none => ([], line)
termination_by line.place.rest.length

/-- A line is the header row of a table, with the line `next` under it in
the same containers. -/
def headsTable (frames : List Frame) (line : ContentLine)
    (next : Option SourceLine) : Bool :=
  next.any fun source =>
    let (_, missed, place) := passFrames (.start source.text) frames.reverse
    missed.isEmpty && isTableStart line (.ofSource source place)

end Crosslink.Markdown
