import Crosslink.Markdown.Lexeme
import Crosslink.Markup.Span
import Crosslink.Path.Url

/-!
# Spans of a text

Turns the inline forms of a text into spans. A link whose destination is
external is finished at once; every other form that points somewhere
becomes a reference, which keeps the text it was written as. A form whose
path cannot be read stays plain text.
-/

namespace Crosslink.Markdown

/-- A number without the plus sign in front. -/
def unsigned : List Char → List Char
  | '+' :: digits => digits
  | digits => digits

def decimalValue (digits : List Char) : Nat :=
  digits.foldl (fun n c => 10 * n + (c.toNat - '0'.toNat)) 0

/-- The number written in decimal digits, with or without a plus sign; it
has to fit into 32 bits. -/
def footnoteNumber? (raw : List Char) : Option Nat :=
  let digits := unsigned raw
  if digits ≠ [] ∧ digits.all Char.isDigit
      ∧ decimalValue digits < FootnoteLabel.numberLimit then
    some (decimalValue digits)
  else none

/-- The footnote label written as `raw`: a number sign alone is plain
auto-numbering, an asterisk alone is auto-symbol, a number is explicit, and
anything else is a label, with or without a number sign in front. -/
def footnoteLabel (raw : List Char) : FootnoteLabel :=
  if raw = ['#'] then .autonumber
  else if raw = ['*'] then .autosymbol
  else
    match footnoteNumber? raw with
    | some number => .numeric number
    | none =>
      match raw with
      | '#' :: label => .labelled (String.ofList label)
      | label => .labelled (String.ofList label)

/-- The id of a reference: an empty one is the text of the reference, an
underscore makes the reference anonymous. -/
def referenceId (written : List Char) (text : String) : String :=
  if written = [] then text
  else if written = ['_'] then ""
  else String.ofList written

namespace Lexeme

def titleText (title : Option (List Char)) : Option String :=
  title.map String.ofList

def pathReference (kind : WrittenPath → ReferenceKind)
    (destination : List Char) (source : String) : Span :=
  match WrittenPath.parse (String.ofList destination) with
  | .ok path => .reference (kind path) source
  | .error _ => .text source

def toSpan (content : List Span) (source : String) : Lexeme → Span
  | imageById alt id =>
    let alt := String.ofList alt
    .reference (.imageId alt (referenceId id alt)) source
  | imageByPath alt destination title =>
    pathReference
      (.imagePath (String.ofList alt) · (titleText title)) destination source
  | citation label => .reference (.citation (String.ofList label)) source
  | footnote label => .reference (.footnote (footnoteLabel label)) source
  | linkById _ id =>
    .reference (.linkId content (referenceId id (Spans.plainText content)))
      source
  | linkByPath _ destination title =>
    let url := String.ofList destination
    if isExternalUrl url then .link content (.external url) (titleText title)
    else
      pathReference (.linkPath content · (titleText title)) destination source
  | strong _ => .strong content
  | emphasis _ => .emphasized content
  | code text => .literal (String.ofList text)

end Lexeme

def inline (cs : List Char) : List Span :=
  (pieces cs).attach.map fun
    | ⟨.plain text, _⟩ => .text (String.ofList text)
    | ⟨.markup lexeme source, h⟩ =>
      have := inner_lt_of_mem_pieces h
      lexeme.toSpan (inline lexeme.inner) (String.ofList source)
termination_by cs.length

end Crosslink.Markdown
