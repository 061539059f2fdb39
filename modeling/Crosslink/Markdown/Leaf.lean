import Crosslink.Markdown.Html
import Crosslink.Markdown.SourceBlock
import Crosslink.Markdown.Unfinished

/-!
# Open leaf blocks

A leaf block holds text and no other blocks. While it is open it takes
lines: `Leaf.take?` gives the blocks that a line finishes and the leaf that
stays open after it, or refuses the line. `Leaf.close` gives the blocks of
a leaf that ends before a line; `lead` is what stands in front of the rest
of that line and still belongs to the leaf.
-/

namespace Crosslink.Markdown

/-- A leaf block that may take more lines. Lines are listed latest
first. -/
inductive Leaf where
  | paragraph (lines : List ContentLine)
  /-- A definition that is complete. -/
  | definition (written : WrittenDefinition) (lines : List ContentLine)
  /-- Code after an opening fence. -/
  | fenced (fence : Fence) (info : List Char) (lines : List ContentLine)
  /-- Indented code; it rests while its last line is blank. -/
  | indented (resting : Bool) (lines : List ContentLine)
  | html (start : HtmlStart) (finished : Bool) (lines : List ContentLine)
  | table (rows : List ContentLine)
  /-- A heading with a text. -/
  | heading (level : Nat) (text : List Char)
  /-- A heading that is nothing but its mark. -/
  | bareHeading (level : Nat) (line : ContentLine)
  | rule
  /-- The last line, cut short. -/
  | unfinished (line : ContentLine)
deriving Repr, DecidableEq

namespace Leaf

/-- The leaf may go on in a line that its containers do not reach. -/
def isLazy : Leaf → Bool
  | paragraph _ => true
  | definition _ _ => true
  | _ => false

/-- The indentation of a line that is not part of the leaf still belongs
to it. -/
def takesIndent : Leaf → Bool
  | indented resting _ => !resting
  | html _ _ _ => true
  | _ => false

/-! ## Closing -/

/-- The blocks of a leaf that ends before a line. -/
def close (lead : List Char) : Leaf → List SourceBlock
  | paragraph lines =>
    [.paragraph (ContentLine.stretch lines.reverse ++ lead)]
  | definition written lines =>
    [.definition written (ContentLine.stretch lines.reverse ++ lead)]
  | fenced _ info [] => [.fencedCode info []]
  | fenced _ info lines =>
    [.fencedCode info (ContentLine.stretch lines.reverse ++ lead)]
  | indented _ lines =>
    [.indentedCode (ContentLine.stretch lines.reverse ++ lead)]
  | html _ _ lines =>
    [.verbatim "html_block" (ContentLine.stretch lines.reverse ++ lead)]
  | table rows =>
    [.verbatim "pipe_table" (ContentLine.stretch rows.reverse ++ lead)]
  | heading level text => [.heading level text]
  | bareHeading level line =>
    let mark := Text.trim (line.body ++ lead)
    [.heading level
      (Text.dropEndWhile (· = '#') (mark.dropWhile (· = '#')))]
  | rule => [.rule]
  | unfinished line => [.verbatim "ERROR" (line.body ++ lead)]

/-! ## Opening -/

/-- The leaf that starts with a line in which no container starts.
`outermost` tells that the line is in no container, and `headsTable` that
it is a header row with the next line under it. -/
def start? (outermost headsTable : Bool) (line : ContentLine) :
    Option Leaf :=
  if line.isBlank then none
  else if isUnfinishedItem line ∨ (outermost ∧ isUnfinishedMark line) then
    some (unfinished line)
  else if 4 ≤ line.indent then some (indented false [line])
  else if isThematicBreak line then some rule
  else
    match headingShape? line, fence? line.visible,
        htmlStart? line with
    | some (level, text), _, _ =>
      if isBlankText text then some (bareHeading level line)
      else some (heading level text)
    | none, some (fence, info), _ => some (fenced fence info [])
    | none, none, some (start, rest) =>
      some (html start (!start.endsAtBlank && start.isEndedBy rest) [line])
    | none, none, none =>
      if headsTable then some (table [line]) else some (paragraph [line])

/-- A line that does not continue a paragraph in front of it. Only some
marks have to stand near the margin. Right after the paragraph, in the
same container, an empty list item is more text, and so is a number of
two digits or more. -/
def breaksParagraph (sameContainer headsTable : Bool)
    (line : ContentLine) : Bool :=
  let near := decide (line.indent ≤ 3)
  let lists := (listMarker? line).any fun (marker, _) =>
    !sameContainer || (marker.short && !marker.bare)
  let rule := isThematicBreak line
  let underline := sameContainer && (underline? line).isSome
  match line.visible with
  | [] => true
  | c :: _ =>
    if c = '>' then true
    else if c = '#' then near && (headingShape? line).isSome
    else if c = '=' then underline
    else if c = '_' then rule
    else if c = '*' then lists || (near && rule)
    else if c = '-' then near && (lists || rule || underline)
    else if c = '+' || c.isDigit then near && lists
    else if c = '<' then
      (htmlStart? line).any fun (start, _) => start.interrupts
    else if c = '~' || c = '\x60' then (fence? line.visible).isSome
    else headsTable

/-! ## Taking a line -/

/-- The heading that a paragraph makes with a line under it. -/
def underlined? (lines : List ContentLine) (line : ContentLine) :
    Option SourceBlock :=
  match underline? line with
  | some symbol =>
    if line.indent ≤ 3 then
      some (.underlined symbol (ContentLine.stretch lines.reverse ++ line.lead))
    else none
  | none => none

/-- A line of code after `resting` or running code. -/
def isCodeLine (resting : Bool) (line : ContentLine) : Bool :=
  decide (4 ≤ line.indent)
    && (!line.isBlank || (!resting && !(line.place.skip 4).rest.isEmpty))

/-- The blocks that a line finishes and the leaf that stays open after it;
nothing if the line does not belong to the leaf. `breaks` tells that it
would not continue a paragraph. -/
def take? (breaks : Bool) (line : ContentLine) :
    Leaf → Option (List SourceBlock × Option Leaf)
  | paragraph lines =>
    if breaks then (underlined? lines line).map fun block => ([block], none)
    else some ([], some (paragraph (line :: lines)))
  | fenced fence info lines =>
    if fence.isClosedBy line then
      some ((fenced fence info lines).close line.lead, none)
    else some ([], some (fenced fence info (line :: lines)))
  | indented resting lines =>
    if isCodeLine resting line then
      some ([], some (indented false (line :: lines)))
    else if line.isBlank then some ([], some (indented true (line :: lines)))
    else none
  | html start false lines =>
    some
      ([], some (html start (start.isEndedBy line.place.rest) (line :: lines)))
  | table [header] => some ([], some (table [line, header]))
  | table rows =>
    if breaks then none else some ([], some (table (line :: rows)))
  | _ => none

def definition? : Leaf → Option Leaf
  | paragraph lines =>
    match Markdown.definition? (lines.reverse.flatMap ContentLine.body) with
    | some (written, []) => some (definition written lines)
    | _ => none
  | _ => none

end Leaf

end Crosslink.Markdown
