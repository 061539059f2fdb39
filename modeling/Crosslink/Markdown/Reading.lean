import Crosslink.Markdown.Container
import Crosslink.Markdown.Leaf

/-!
# Readings of a source

A source is read line by line. Open containers form a stack, and the
innermost one may hold an open leaf. A line first passes the containers;
where it fits no further, it closes what is left, or continues an open
paragraph. The rest of the line may open containers and starts a leaf.

A paragraph that begins like a link definition may be read as one or as
plain text, and what follows depends on it. Both readings are carried on
(`Reading.next`), until they agree on what is open; the one with more
definitions is kept then (`insert`).
-/

namespace Crosslink.Markdown

/-- What is open and what is finished after some lines, as they are
read. -/
structure Reading where
  /-- Open containers, innermost first. -/
  frames : List Frame := []
  leaf : Option Leaf := none
  /-- Finished blocks outside of containers, latest first. -/
  blocks : List SourceBlock := []
  /-- Parts of definitions that were found. -/
  found : Nat := 0

/-- The label, the destination and the title of a definition are found;
other blocks have no such parts. -/
def SourceBlock.parts : SourceBlock → Nat
  | .definition written _ => if written.title.isSome then 3 else 2
  | _ => 0

namespace Reading

/-- Finished blocks go to the innermost container. -/
def add (r : Reading) (blocks : List SourceBlock) : Reading :=
  let found := blocks.foldl (fun n block => n + block.parts) r.found
  let r := { r with found := found }
  match r.frames with
  | [] => { r with blocks := blocks.reverse ++ r.blocks }
  | frame :: frames => { r with frames := frame.add blocks :: frames }

/-- Closes the open leaf. -/
def closeLeaf (r : Reading) (lead : List Char) : Reading :=
  match r.leaf with
  | none => r
  | some leaf => { r with leaf := none }.add (leaf.close lead)

/-- Closes the `count` innermost containers. -/
def closeFrames (r : Reading) (lead : List Char) : Nat → Reading
  | 0 => r
  | count + 1 =>
    match r.frames with
    | [] => r
    | frame :: frames =>
      ({ r with frames := frames }.add [frame.close lead]).closeFrames
        lead count

/-- A line belongs to all open containers. -/
def note (r : Reading) (line : ContentLine) : Reading :=
  { r with frames := r.frames.map (Frame.note line) }

def start (next : Option SourceLine) (line : ContentLine) (r : Reading) :
    Reading :=
  let (opened, rest) := openFrames line
  let frames := opened.reverse ++ r.frames
  { r with
    frames := frames
    leaf := Leaf.start? frames.isEmpty (headsTable frames rest next) rest }

/-- A line continues the paragraph in front of it, or stands in its
place after a definition. -/
def continueText (next : Option SourceLine) (line : ContentLine)
    (r : Reading) : Reading :=
  match r.leaf with
  | some (.paragraph lines) =>
    { r.note line with leaf := some (.paragraph (line :: lines)) }
  | _ => ((r.closeLeaf line.lead).note line).start next line

/-- A line that passed all open containers. -/
def feedInside (next : Option SourceLine) (breaks : Bool)
    (line : ContentLine) (r : Reading) : Reading :=
  match r.leaf with
  | none => (r.note line).start next line
  | some leaf =>
    match leaf.take? breaks line with
    | some (finished, leaf) => ({ r with leaf := leaf }.add finished).note line
    | none =>
      let line := if leaf.takesIndent then line.passIndent else line
      ((r.closeLeaf line.lead).note line).start next line

/-- A line that passed some containers (`deep`) but missed the container
`missed` and the `inner` ones in it. -/
def feedOutside (next : Option SourceLine) (deep : Bool) (missed : Frame)
    (inner : Nat) (line : ContentLine) (r : Reading) : Reading :=
  let ofLeaf :=
    if deep || r.leaf.any Leaf.takesIndent then line.lead else []
  let r := r.closeLeaf ofLeaf
  match missed.nextItem? line with
  | some (frame, q) =>
    let r := r.closeFrames line.lead inner
    let outer := { r with frames := r.frames.tail }.note line
    { outer with frames := frame :: outer.frames }.start next
      { line with place := q }
  | none =>
    ((r.closeFrames line.lead (inner + 1)).note line).start next line

/-- Takes the line `source`, which stands before `next`. -/
def feed (next : Option SourceLine) (source : SourceLine) (r : Reading) :
    Reading :=
  let start := Position.start source.text
  let (passed, missed, place) := passFrames start r.frames.reverse
  let line := ContentLine.ofSource source place
  let breaks :=
    Leaf.breaksParagraph missed.isEmpty (headsTable r.frames line next) line
  if r.leaf.any Leaf.isLazy && !breaks then
    r.continueText next
      (if passed.isEmpty then ContentLine.ofSource source start else line)
  else
    match missed with
    | [] => r.feedInside next breaks line
    | frame :: inner =>
      r.feedOutside next (!passed.isEmpty) frame inner.length line

def next (following : Option SourceLine) (source : SourceLine)
    (r : Reading) : List Reading :=
  let r := r.feed following source
  match r.leaf.bind Leaf.definition? with
  | some leaf => [r, { r with leaf := some leaf }]
  | none => [r]

/-- Closes everything at the end of a source. -/
def finish (r : Reading) : Reading :=
  (r.closeLeaf []).closeFrames [] r.frames.length

/-- Two readings will take later lines alike. -/
def agrees (r s : Reading) : Bool :=
  r.frames.map Frame.emptied == s.frames.map Frame.emptied
    && r.leaf == s.leaf

def better (r s : Reading) : Reading := if r.found < s.found then s else r

end Reading

/-- Adds a reading; of two that agree one is kept. -/
def insert (r : Reading) : List Reading → List Reading
  | [] => [r]
  | s :: readings =>
    if s.agrees r then s.better r :: readings else s :: insert r readings

def readLines (readings : List Reading) : List SourceLine → List Reading
  | [] => readings
  | line :: lines =>
    readLines
      ((readings.flatMap (Reading.next lines.head? line)).foldl
        (fun kept r => insert r kept) [])
      lines

def bestReading (lines : List SourceLine) : Reading :=
  match (readLines [{}] lines).map Reading.finish with
  | [] => {}
  | r :: readings => readings.foldl Reading.better r

end Crosslink.Markdown
