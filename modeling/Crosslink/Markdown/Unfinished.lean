import Crosslink.Markdown.Shape

/-!
# Lines cut short

A heading, an opening fence and an empty list item have to end with a line
end, which the last line of a source may lack. The missing line end may be
thought there, or the line may be skipped; the cheaper way is taken. For an
empty list item there is no choice.
-/

namespace Crosslink.Markdown

/-- The cost of a line end that is not there. -/
def missingCost : Nat := 110

/-- The cost of each sign that is skipped, besides its bytes. -/
def signCost : Nat := 100

/-- The cost of each line that is skipped, besides its bytes. -/
def lineCost : Nat := 30

/-- The cost of skipping a text with `signs` signs. -/
def skipCost (signs : Nat) (text : List Char) : Nat :=
  signs * signCost + (String.ofList text).utf8ByteSize

/-- Punctuation marks. Each of them is a sign. -/
def isPunctuation (c : Char) : Bool :=
  '!' ≤ c && c ≤ '~' && !c.isAlphanum

/-- An empty list item without a line end. -/
def isUnfinishedItem (line : ContentLine) : Bool :=
  !line.isEnded && line.indent ≤ 3
    && (listMarker? line).any fun (_, content) => content.isBlank

/-- A heading without text or an opening fence, without a line end and
cheap to skip. What stands after a fence is one sign. -/
def isUnfinishedMark (line : ContentLine) : Bool :=
  !line.isEnded && line.indent ≤ 3
    && match headingShape? line, fence? line.visible with
      | some (_, text), _ =>
        isBlankText text && skipCost 1 line.body < missingCost
      | none, some (_, info) =>
        skipCost (if isBlankText info then 0 else 1) line.body < missingCost
      | none, none => false

end Crosslink.Markdown
