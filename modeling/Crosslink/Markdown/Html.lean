import Crosslink.Markdown.Line
import Crosslink.Text.Basic
import Crosslink.Text.Scan

/-!
# HTML blocks

Seven kinds of lines start a block of HTML. Five of them name the text
that ends it; the block of a known element, or of any other complete tag
that fills its line, ends with a blank line.
-/

namespace Crosslink.Markdown

inductive HtmlStart where
  /-- An element whose text is not markup. -/
  | script
  | comment
  | instruction
  | declaration
  | characterData
  /-- A tag of a block element. -/
  | element
  /-- Any other tag alone on its line. -/
  | tag
deriving Repr, DecidableEq

/-- Elements whose text is not markup. -/
def scriptNames : List String := ["pre", "script", "style"]

/-- Block elements. Headings are not among them: only letters are read as
the name. -/
def elementNames : List String :=
  ["address", "article", "aside", "base", "basefont", "blockquote", "body",
   "caption", "center", "col", "colgroup", "dd", "details", "dialog", "dir",
   "div", "dl", "dt", "fieldset", "figcaption", "figure", "footer", "form",
   "frame", "frameset", "head", "header", "hr", "html", "iframe", "legend",
   "li", "link", "main", "menu", "menuitem", "nav", "noframes", "ol",
   "optgroup", "option", "p", "param", "section", "source", "summary",
   "table", "tbody", "td", "tfoot", "th", "thead", "title", "tr", "track",
   "ul"]

/-! ## Tags -/

/-- Characters of a tag name after its letters. -/
def isNameChar (c : Char) : Bool := c.isAlphanum || c == '-'

/-- Characters of an attribute name after the first one. -/
def isAttributeChar (c : Char) : Bool :=
  c.isAlphanum || c == '_' || c == '.' || c == ':' || c == '-'

/-- Characters of an attribute value without quotes. -/
def isBareValueChar (c : Char) : Bool :=
  !(isBlankChar c || c == '"' || c == '\'' || c == '=' || c == '<'
    || c == '>' || c == '\x60')

/-- What follows an attribute value. -/
def afterValue? : List Char → Option (List Char)
  | '"' :: cs => (Text.cutAt '"' cs).map (·.2)
  | '\'' :: cs => (Text.cutAt '\'' cs).map (·.2)
  | cs =>
    if (cs.take 1).any isBareValueChar then some (cs.dropWhile isBareValueChar)
    else none

def scanAttribute (cs : List Char) : Option (Option Unit × List Char) :=
  let name := cs.dropWhile isBlankChar
  match name with
  | c :: more =>
    if (c.isAlpha || c == '_' || c == ':') && (cs.take 1).all isBlankChar then
      let after := more.dropWhile isAttributeChar
      match after.dropWhile isBlankChar with
      | '=' :: value =>
        (afterValue? (value.dropWhile isBlankChar)).map fun rest =>
          (some (), rest)
      | _ => some (some (), after)
    else some (none, name)
  | [] => some (none, [])

/-- The rest of a tag name after its letters, in which one slash may come
first. -/
def dropName : List Char → List Char
  | '/' :: cs => cs.dropWhile isNameChar
  | cs => cs.dropWhile isNameChar

/-- What follows a complete tag, after the letters of its name. A closing
tag has no attributes. -/
def afterTag? (closing : Bool) (cs : List Char) : Option (List Char) :=
  let cs := dropName cs
  if closing then
    match cs.dropWhile isBlankChar with
    | '>' :: rest => some rest
    | _ => none
  else
    match Text.scanUntil scanAttribute cs with
    | some (_, '>' :: rest) => some rest
    | some (_, '/' :: '>' :: rest) => some rest
    | _ => none

/-! ## Blocks -/

def tagName (letters : List Char) : String :=
  String.ofList (letters.map Char.toLower)

/-- A name may be followed by a blank, the end of the tag or a line end. -/
def endsName (ended : Bool) : List Char → Bool
  | [] => ended
  | c :: _ => isBlankChar c || c == '>'

/-- How a line starts a block of HTML by a tag, read after the angle
bracket, and what follows the name. `ended` tells that the line has a line
end. -/
def tagStart? (ended : Bool) (cs : List Char) :
    Option (HtmlStart × List Char) :=
  let closing := cs.head? == some '/'
  let cs := if closing then cs.drop 1 else cs
  let letters := cs.takeWhile Char.isAlpha
  let rest := cs.dropWhile Char.isAlpha
  let name := tagName letters
  let closed := rest.take 2 == ['/', '>']
  if letters.isEmpty then none
  else if !closing && scriptNames.contains name && endsName ended rest then
    some (.script, rest)
  else if elementNames.contains name && (endsName ended rest || closed) then
    some (.element, rest)
  else
    let after := if closed then some (rest.drop 2) else afterTag? closing rest
    if ended && after.any isBlankText then some (.tag, rest) else none

/-- How a line starts a block of HTML, if it does, and what follows the
mark that tells. -/
def htmlStart? (line : ContentLine) : Option (HtmlStart × List Char) :=
  match line.visible with
  | '<' :: '?' :: cs => some (.instruction, cs)
  | '<' :: '!' :: '-' :: '-' :: cs => some (.comment, cs)
  | '<' :: '!' :: cs =>
    if (cs.take 1).any Char.isUpper then some (.declaration, cs.drop 1)
    else if cs.take 7 = "[CDATA[".toList then some (.characterData, cs.drop 7)
    else tagStart? line.isEnded cs
  | '<' :: cs => tagStart? line.isEnded cs
  | _ => none

/-- The text holds the closing tag of an element whose text is not
markup. -/
def closesScript : List Char → Bool
  | [] => false
  | '<' :: '/' :: cs =>
    (scriptNames.contains (tagName (cs.takeWhile Char.isAlpha))
      && endsName true (cs.dropWhile Char.isAlpha)) || closesScript cs
  | _ :: cs => closesScript cs

namespace HtmlStart

/-- Such a block may follow a paragraph without a blank line. -/
def interrupts : HtmlStart → Bool
  | tag => false
  | _ => true

/-- Such a block ends with a blank line. -/
def endsAtBlank : HtmlStart → Bool
  | element => true
  | tag => true
  | _ => false

def isEndedBy (text : List Char) : HtmlStart → Bool
  | script => closesScript text
  | comment => Text.contains "-->".toList text
  | instruction => Text.contains "?>".toList text
  | declaration => Text.contains ['>'] text
  | characterData => Text.contains "]]>".toList text
  | element => isBlankText text
  | tag => isBlankText text

end HtmlStart

end Crosslink.Markdown
