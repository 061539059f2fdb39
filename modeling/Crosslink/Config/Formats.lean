/-!
# Output formats

The formats a document may be rendered to: every format, or only those of
a list. The list is kept sorted and without repeats (`TargetFormats.only`
is built by `ofNames`), so that equal sets are equal values.
-/

namespace Crosslink

/-- Puts a name into a sorted list unless it is there already. -/
def insertName (name : String) : List String → List String
  | [] => [name]
  | other :: names =>
    if name < other then name :: other :: names
    else if name = other then other :: names
    else other :: insertName name names

def sortNames (names : List String) : List String :=
  names.foldr insertName []

/-- The enabled output formats. -/
inductive TargetFormats where
  | all
  | only (names : List String)
deriving Repr, DecidableEq

namespace TargetFormats

def ofNames (names : List String) : TargetFormats := .only (sortNames names)

/-- Every format enabled in `f` is enabled in `g`. -/
def isSubsetOf : (f g : TargetFormats) → Bool
  | _, .all => true
  | .all, .only _ => false
  | .only mine, .only theirs => mine.all theirs.contains

/-- Names of a list in brackets, for messages. -/
def describe : TargetFormats → String
  | .all => "all formats"
  | .only names => "[" ++ String.intercalate ", " names ++ "]"

end TargetFormats

end Crosslink
