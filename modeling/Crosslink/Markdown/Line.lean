/-!
# Lines of a source

Block structure is read line by line. A `SourceLine` keeps its line end. A
`Position` is a place in a line together with its column, because tabs
reach to the next multiple of four columns and a container may take a part
of a tab only. A `ContentLine` is a line as the containers around it see
it.
-/

namespace Crosslink.Markdown

/-- A line and its line end, which only the last line may lack. -/
structure SourceLine where
  text : List Char
  ending : List Char
deriving Repr, DecidableEq

def splitLines : List Char → List SourceLine
  | [] => []
  | '\r' :: '\n' :: cs => ⟨[], ['\r', '\n']⟩ :: splitLines cs
  | c :: cs =>
    if c = '\n' ∨ c = '\r' then ⟨[], [c]⟩ :: splitLines cs
    else
      match splitLines cs with
      | [] => [⟨[c], []⟩]
      | line :: lines => { line with text := c :: line.text } :: lines

namespace SourceLine

def full (line : SourceLine) : List Char := line.text ++ line.ending

end SourceLine

/-- Spaces and tabs. -/
def isBlankChar (c : Char) : Bool := c == ' ' || c == '\t'

/-- Nothing but spaces and tabs. -/
def isBlankText (cs : List Char) : Bool := cs.all isBlankChar

/-- Width of a character that starts in `column`. -/
def charWidth (column : Nat) (c : Char) : Nat :=
  if c = '\t' then 4 - column % 4 else 1

/-- Width of the indentation of a text that starts in `column`. -/
def indentWidth (column : Nat) : List Char → Nat
  | [] => 0
  | c :: cs =>
    if isBlankChar c then
      charWidth column c + indentWidth (column + charWidth column c) cs
    else 0

/-- A place in a line. -/
structure Position where
  column : Nat
  /-- Columns before the place that still count as indentation. -/
  spare : Nat
  rest : List Char
deriving Repr, DecidableEq

namespace Position

def start (text : List Char) : Position := ⟨0, 0, text⟩

def indent (p : Position) : Nat := p.spare + indentWidth p.column p.rest

/-- Nothing visible is left of the line. -/
def isBlank (p : Position) : Bool := isBlankText p.rest

/-- The text after the indentation. -/
def visible (p : Position) : List Char := p.rest.dropWhile isBlankChar

/-- Passes `n` columns of indentation. -/
def skipFrom (n column spare : Nat) : List Char → Position
  | [] => ⟨column, spare - n, []⟩
  | c :: cs =>
    if n ≤ spare then ⟨column, spare - n, c :: cs⟩
    else if isBlankChar c then
      skipFrom (n - spare) (column + charWidth column c) (charWidth column c) cs
    else ⟨column, 0, c :: cs⟩

/-- The place `n` columns further inside the indentation. -/
def skip (p : Position) (n : Nat) : Position :=
  skipFrom n p.column p.spare p.rest

/-- The place after the indentation, which still counts as such. -/
def passIndent (p : Position) : Position :=
  ⟨p.column + indentWidth p.column p.rest, p.indent, p.visible⟩

/-- The place after `count` visible characters, which follow the
indentation. -/
def passVisible (p : Position) (count : Nat) : Position :=
  ⟨p.column + indentWidth p.column p.rest + count, 0, p.visible.drop count⟩

/-! ## Places further on have less text before them -/

theorem length_skipFrom_le (n column spare : Nat) (cs : List Char) :
    (skipFrom n column spare cs).rest.length ≤ cs.length := by
  induction cs generalizing n column spare with
  | nil => simp [skipFrom]
  | cons c cs ih =>
    rw [skipFrom]
    split
    · exact Nat.le_refl _
    · split
      · exact Nat.le_succ_of_le (ih ..)
      · exact Nat.le_refl _

theorem length_skip_le (p : Position) (n : Nat) :
    (p.skip n).rest.length ≤ p.rest.length :=
  length_skipFrom_le ..

theorem length_visible_le (p : Position) :
    p.visible.length ≤ p.rest.length :=
  (List.dropWhile_suffix isBlankChar).length_le

theorem length_passVisible_lt {p : Position} {count : Nat}
    (hcount : 0 < count) (h : p.visible ≠ []) :
    (p.passVisible count).rest.length < p.rest.length := by
  have hle := p.length_visible_le
  have hpos := List.length_pos_iff.2 h
  simp only [passVisible, List.length_drop]
  omega

end Position

/-! ## Lines inside containers -/

/-- A line as the innermost container sees it. -/
structure ContentLine where
  /-- What the containers took of the line. -/
  lead : List Char
  place : Position
  ending : List Char
deriving Repr, DecidableEq

namespace ContentLine

def ofSource (source : SourceLine) (place : Position) : ContentLine :=
  ⟨source.text.take (source.text.length - place.rest.length), place,
    source.ending⟩

/-- The line without the part of the containers. -/
def body (line : ContentLine) : List Char := line.place.rest ++ line.ending

/-- The line as it stands in the source. -/
def full (line : ContentLine) : List Char := line.lead ++ line.body

/-- The text after the indentation. -/
def visible (line : ContentLine) : List Char := line.place.visible

def indent (line : ContentLine) : Nat := line.place.indent

/-- Nothing visible is left of the line. -/
def isBlank (line : ContentLine) : Bool := line.place.isBlank

def isEnded (line : ContentLine) : Bool := !line.ending.isEmpty

/-- The line with its indentation left to what stands before it. -/
def passIndent (line : ContentLine) : ContentLine :=
  ⟨line.lead ++ line.place.rest.takeWhile isBlankChar, line.place.passIndent,
    line.ending⟩

/-- The stretch of the source from the body of the first line to the end
of the last one. -/
def stretch : List ContentLine → List Char
  | [] => []
  | line :: lines => line.body ++ lines.flatMap full

end ContentLine

end Crosslink.Markdown
