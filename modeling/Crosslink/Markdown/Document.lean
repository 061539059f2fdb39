import Crosslink.Markdown.Inline
import Crosslink.Markdown.Structure
import Crosslink.Markup.Block

/-!
# Documents

Reads a document: its block structure first, then the text of each block.
Headings may end in an explicit id. A paragraph may also be a footnote, a
citation, an anchor or a single image; link definitions may be footnotes,
citations and aliases as well. Lists, tables and blocks of HTML are kept as
they are.
-/

namespace Crosslink.Markdown

open Unicode (isWhite)

/-! ## Explicit ids -/

/-- The text of an explicit id, up to the closing brace. -/
def explicitId? : List Char → Option (String × List Char)
  | '\x7b' :: '#' :: cs =>
    match Text.cutAt '\x7d' cs with
    | some (id, rest) =>
      if id ≠ [] ∧ id.all (!isWhite ·) then some (String.ofList id, rest)
      else none
    | none => none
  | _ => none

/-- The text is an explicit id between white space and nothing else. -/
def closingId? (cs : List Char) : Option String :=
  match explicitId? (Text.trimStart cs) with
  | some (id, rest) => if Text.isBlank rest then some id else none
  | none => none

def splitHeadingId : List Char → List Char × Option String
  | [] => ([], none)
  | c :: cs =>
    match closingId? (c :: cs) with
    | some id => ([], some id)
    | none =>
      let (text, id) := splitHeadingId cs
      (c :: text, id)

/-! ## Paragraphs -/

/-- What a paragraph with a label in front declares. -/
inductive LabelKind where
  | footnote
  | citation
deriving Repr, DecidableEq

namespace LabelKind

/-- The first character of such a label. -/
def mark : LabelKind → Char
  | footnote => '^'
  | citation => '@'

def toBlock (label : List Char) (content : List Block) : LabelKind → Block
  | footnote => .footnoteDefinition (footnoteLabel label) content
  | citation => .citation (String.ofList label) none content

end LabelKind

/-- A label of a kind, a colon, and the text after it. -/
def labelledAs? (kind : LabelKind) (cs : List Char) :
    Option (LabelKind × List Char × List Char) :=
  match Lexeme.marked? kind.mark cs with
  | some (label, ':' :: rest) => some (kind, label, Text.trim rest)
  | _ => none

/-- A label, a colon, and the text after it. -/
def labelled? (cs : List Char) :
    Option (LabelKind × List Char × List Char) :=
  match labelledAs? .footnote cs with
  | some found => some found
  | none => labelledAs? .citation cs

theorem length_dropEndWhile_le (p : Char → Bool) (cs : List Char) :
    (Text.dropEndWhile p cs).length ≤ cs.length := by
  simpa [Text.dropEndWhile] using (cs.reverse.dropWhile_suffix p).length_le

theorem length_trim_le (cs : List Char) :
    (Text.trim cs).length ≤ cs.length :=
  Nat.le_trans (length_dropEndWhile_le ..)
    (List.dropWhile_suffix isWhite).length_le

theorem length_labelledAs?_lt {kind : LabelKind} {cs : List Char}
    {found : LabelKind × List Char × List Char}
    (h : labelledAs? kind cs = some found) :
    found.2.2.length < cs.length := by
  unfold labelledAs? at h
  split at h
  · rename_i label rest hmarked
    cases h
    have hlength := Lexeme.length_marked? hmarked
    have htrim := length_trim_le rest
    simp only [List.length_cons] at hlength
    show (Text.trim rest).length < cs.length
    omega
  · simp at h

theorem length_labelled?_lt {cs : List Char}
    {found : LabelKind × List Char × List Char}
    (h : labelled? cs = some found) : found.2.2.length < cs.length := by
  unfold labelled? at h
  split at h
  · rename_i hfootnote
    cases h
    exact length_labelledAs?_lt hfootnote
  · exact length_labelledAs?_lt h

/-- The block of a text without a label: an explicit id alone declares an
anchor, an image alone is a block of its own. -/
def plainParagraph (text : List Char) : Block :=
  match explicitId? text with
  | some (id, []) => .anchor id
  | _ =>
    match inline text with
    | [.reference (.imageId alt id) source] =>
      .reference (.imageId alt id) source
    | [.reference (.imagePath alt path title) source] =>
      .reference (.imagePath alt path title) source
    | content => .paragraph content

/-- The block of a text. A label in front makes the rest the content of
what it declares. -/
def paragraphBlock (text : List Char) : Block :=
  match h : labelled? text with
  | some (kind, label, body) =>
    have := length_labelled?_lt h
    kind.toBlock label [paragraphBlock body]
  | none => plainParagraph text
termination_by text.length

/-- A line of a quote without the markers of `depth` quotes. -/
def dropQuoteMarkers (depth : Nat) (line : List Char) : List Char :=
  match depth, line with
  | depth + 1, '>' :: ' ' :: cs => dropQuoteMarkers depth cs
  | depth + 1, '>' :: cs => dropQuoteMarkers depth cs
  | _, cs => cs

/-- A text without the markers of the `depth` quotes around it. -/
def stripQuoteMarkers (depth : Nat) (text : List Char) : List Char :=
  if depth = 0 then text
  else
    ['\n'].intercalate
      ((Text.lines text).map fun line =>
        dropQuoteMarkers depth (Text.trimStart line))

/-! ## Link definitions -/

/-- The label without its brackets; an underscore alone is no label. -/
def definitionId (label : List Char) : String :=
  let id := Text.dropEndWhile (· = ']') (label.dropWhile (· = '['))
  if id = ['_'] then "" else String.ofList id

/-- The destination without its angle brackets. -/
def bareDestination (destination : List Char) : List Char :=
  Text.dropEndWhile (· = '>') (destination.dropWhile (· = '<'))

/-- The title without its quotes. -/
def bareTitle (title : List Char) : String :=
  String.ofList (title.drop 1).dropLast

/-- Characters of a path or an address. -/
def isAddressChar (c : Char) : Bool :=
  c == '/' || c == '.' || c == '#' || c == ':'

/-- The id that a destination stands for: a name and an underscore after
it, and nothing that belongs to a path or an address. -/
def aliasTarget? (destination : List Char) : Option String :=
  let name := destination.dropLast
  if destination.getLast? = some '_' ∧ name ≠ []
      ∧ name.all (!isAddressChar ·) then
    some (String.ofList name)
  else none

/-- Where a destination points; what cannot be read as a path is taken as
an address. -/
def definitionTarget (destination : String) : DefinitionTarget :=
  if isExternalUrl destination then .external destination
  else
    match WrittenPath.parse destination with
    | .ok path => .internal path
    | .error _ => .external destination

def definitionBlock (written : WrittenDefinition) (text : List Char) :
    Block :=
  match labelled? (Text.trim text) with
  | some _ => paragraphBlock (Text.trim text)
  | none =>
    let id := definitionId written.label
    let destination := bareDestination written.destination
    let direct :=
      Block.linkDefinition
        ⟨id, definitionTarget (String.ofList destination),
          written.title.map bareTitle⟩
    match aliasTarget? destination with
    | some target => if id = "" then direct else .linkAlias ⟨id, target⟩
    | none => direct

/-! ## Code -/

/-- The first word of what follows an opening fence. -/
def fenceLanguage? (info : List Char) : Option String :=
  let word := (Text.trimStart info).takeWhile (!isWhite ·)
  if word.isEmpty then none else some (String.ofList word)

/-- A line of indented code without four spaces of its indentation. -/
def dropCodeIndent (line : List Char) : List Char :=
  line.drop (min 4 (line.takeWhile (· = ' ')).length)

/-- Indented code without its indentation. -/
def unindent (text : List Char) : String :=
  String.ofList (['\n'].intercalate ((Text.lines text).map dropCodeIndent))

/-! ## Blocks -/

mutual

/-- The block of a piece of source inside `depth` quotes; a paragraph
without text is none. -/
def SourceBlock.toBlock? (depth : Nat) : SourceBlock → Option Block
  | .heading level text =>
    let (text, id) := splitHeadingId (Text.trim text)
    some (.header ⟨inline text, id, level⟩)
  | .underlined symbol text =>
    let (text, id) := splitHeadingId (Text.trim text)
    some (.decoratedHeader ⟨inline text, ⟨symbol, false⟩, id⟩)
  | .quote content =>
    some (.quoted (SourceBlocks.toBlocks (depth + 1) content))
  | .fencedCode info code =>
    some (.codeBlock (String.ofList code) (fenceLanguage? info))
  | .indentedCode text => some (.codeBlock (unindent text) none)
  | .definition written text => some (definitionBlock written text)
  | .paragraph text =>
    let text := Text.trim (stripQuoteMarkers depth text)
    if text.isEmpty then none else some (paragraphBlock text)
  | .rule => some .rule
  | .verbatim kind text => some (.verbatim kind (String.ofList text))

def SourceBlocks.toBlocks (depth : Nat) : List SourceBlock → List Block
  | [] => []
  | block :: blocks =>
    (block.toBlock? depth).toList ++ SourceBlocks.toBlocks depth blocks

end

/-- The blocks of a document without its front matter. -/
def parse (source : String) : List Block :=
  SourceBlocks.toBlocks 0 (sourceBlocks source.toList)

end Crosslink.Markdown
