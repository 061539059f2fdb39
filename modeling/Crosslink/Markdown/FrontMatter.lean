import Crosslink.Text.Basic

/-!
# Front matter

A source may begin with a configuration between two lines `+++`. The first
line must hold nothing else, the closing one may end in white space.
-/

namespace Crosslink.Markdown

def frontMatterFence : List Char := ['+', '+', '+']

/-- A source in its two parts. -/
structure SplitSource where
  front : Option (List Char)
  body : List Char
deriving Repr, DecidableEq

/-- What stands after an opening fence line. -/
def afterFence? (source : List Char) : Option (List Char) :=
  match frontMatterFence.isPrefixOf? source with
  | some ('\n' :: rest) => some rest
  | some ('\r' :: '\n' :: rest) => some rest
  | _ => none

/-- The lines before the closing fence, and the lines after it. -/
def splitAtFence : List (List Char) →
    Option (List (List Char) × List (List Char))
  | [] => none
  | line :: lines =>
    if Text.trimEnd line = frontMatterFence then some ([], lines)
    else (splitAtFence lines).map fun (front, body) => (line :: front, body)

/-- Takes the front matter off a source; an unclosed one is none. -/
def splitFrontMatter (source : List Char) : SplitSource :=
  match afterFence? source with
  | none => ⟨none, source⟩
  | some rest =>
    match splitAtFence (Text.fullLines rest) with
    | none => ⟨none, source⟩
    | some (front, body) => ⟨some front.flatten, body.flatten⟩

end Crosslink.Markdown
