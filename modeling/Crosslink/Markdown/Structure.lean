import Crosslink.Markdown.Reading

/-!
# Block structure

Cuts a whole source into blocks (`sourceBlocks`): metadata in front, then
the blocks of the best reading of its lines.
-/

namespace Crosslink.Markdown

/-! ## Metadata -/

def isMetadataFence (mark : Char) (line : SourceLine) : Bool :=
  decide ((line.text.takeWhile (· = mark)).length = 3)
    && isBlankText (line.text.dropWhile (· = mark)) && !line.ending.isEmpty

/-- A line of exactly three marks near the margin. -/
def opensMetadata (mark : Char) (line : SourceLine) : Bool :=
  decide (indentWidth 0 line.text ≤ 3)
    && isMetadataFence mark
      { line with text := line.text.dropWhile isBlankChar }

/-- The metadata in front of a source, between two lines of three marks,
and the lines after it. -/
def metadata? (mark : Char) : List SourceLine →
    Option (List Char × List SourceLine)
  | [] => none
  | first :: lines =>
    let inside := lines.takeWhile (!isMetadataFence mark ·)
    match opensMetadata mark first, lines.drop inside.length with
    | true, last :: rest =>
      some ((first :: inside ++ [last]).flatMap SourceLine.full, rest)
    | _, _ => none

/-- The metadata block in front of a source, and the lines after it. -/
def splitMetadata (lines : List SourceLine) :
    List SourceBlock × List SourceLine :=
  match metadata? '-' lines, metadata? '+' lines with
  | some (text, rest), _ => ([.verbatim "minus_metadata" text], rest)
  | none, some (text, rest) => ([.verbatim "plus_metadata" text], rest)
  | none, none => ([], lines)

/-! ## Sources -/

def skipAllCost (signs : Nat) (lines : List SourceLine) : Nat :=
  skipCost signs (lines.flatMap SourceLine.full)
    + (lines.length - 1) * lineCost

/-- The signs of a heading or fence with a text, and what is left of it if
the text is skipped: a heading leaves its mark. -/
def remains? (line : ContentLine) : Option (Nat × List SourceBlock) :=
  match headingShape? line, fence? line.visible with
  | some (level, text), _ =>
    if isBlankText text then none
    else
      some (1 + text.countP isPunctuation,
        [.verbatim ("atx_h" ++ toString level ++ "_marker")
          (line.body.take (line.body.length - text.length))])
  | none, some (_, info) =>
    if isBlankText info then none else some (info.countP isPunctuation, [])
  | none, none => none

/-- The blocks of a source that is skipped because its only line, behind
quote marks at most, is cut short. -/
def skipped? (lines : List SourceLine) : Option (List SourceBlock) :=
  match lines.dropWhile fun source => isBlankText source.text with
  | [source] =>
    let line := ContentLine.ofSource source (.start source.text)
    let (frames, rest) := openFrames line
    if line.isEnded ∨ 3 < rest.indent ∨ !frames.all Frame.isQuote then none
    else
      let remains := (remains? rest).filter fun (signs, _) =>
        skipAllCost signs lines < missingCost
      match remains with
      | some (_, blocks) => some blocks
      | none =>
        if !frames.isEmpty && (isUnfinishedItem rest || isUnfinishedMark rest)
        then some [.verbatim "ERROR" line.body]
        else none
  | _ => none

def sourceBlocks (source : List Char) : List SourceBlock :=
  let lines := splitLines source
  match skipped? lines with
  | some blocks => blocks
  | none =>
    let (metadata, lines) := splitMetadata lines
    metadata ++ (bestReading lines).blocks.reverse

end Crosslink.Markdown
