import Crosslink.Markup.Block
import Crosslink.Unicode.Alphanumeric
import Crosslink.Unicode.Case

/-!
# Slugs

The anchor id of a header without an explicit one is derived from its
text: lower-cased, every run of other characters than letters and numbers
becomes one hyphen, none at the ends (`slugify`). Inside one document the
derived ids are kept apart from each other and from all explicit ids:
`freshId` takes the first of `base`, `base-1`, `base-2`, … that is not in
use yet.
-/

namespace Crosslink

open Unicode (isAlphanumeric lowercase)

/-! ## From text to slug -/

/-- Copies letters and numbers and marks a gap by one hyphen. The flag
tells whether a gap would be marked, which is not so at the start and
after a hyphen; a gap at the end is never marked. -/
def hyphenate : (inWord : Bool) → List Char → List Char
  | _, [] => []
  | inWord, c :: cs =>
    if isAlphanumeric c then c :: hyphenate true cs
    else if inWord && cs.any isAlphanumeric then '-' :: hyphenate false cs
    else hyphenate false cs

def slugify (text : String) : String :=
  String.ofList (hyphenate false (lowercase text.toList))

/-! ## Ids derived within one document -/

/-- The slug a header starts from; a text without letters and numbers
gives `section`. -/
def slugBase (content : List Span) : String :=
  let slug := slugify (Spans.plainText content)
  if slug = "" then "section" else slug

/-- The `k`-th candidate for a derived id. -/
def candidateId (base : String) : Nat → String
  | 0 => base
  | k + 1 => base ++ "-" ++ toString (k + 1)

/-- The first candidate from the `k`-th on that is not in `used`, looking
at `room` of them before settling for the next. -/
def freshFrom (used : List String) (base : String) : (room k : Nat) → String
  | 0, k => candidateId base k
  | room + 1, k =>
    if used.contains (candidateId base k) then
      freshFrom used base room (k + 1)
    else candidateId base k

/-- The first candidate not in `used`. The candidates differ from each
other, so one more of them than there are used ids is enough. -/
def freshId (used : List String) (base : String) : String :=
  freshFrom used base used.length 0

mutual

/-- The ids written explicitly in a block and in the containers that a
reader looks into for them. -/
def Block.explicitIds : Block → List String
  | .anchor id => [id]
  | .header header => header.id.toList
  | .decoratedHeader header => header.id.toList
  | .title title => title.id.toList
  | .sectionOf header content =>
    header.id.toList ++ Blocks.explicitIds content
  | .quoted content => Blocks.explicitIds content
  | _ => []

def Blocks.explicitIds : List Block → List String
  | [] => []
  | block :: blocks => block.explicitIds ++ Blocks.explicitIds blocks

end

end Crosslink
