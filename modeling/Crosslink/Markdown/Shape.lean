import Crosslink.Markdown.Line
import Crosslink.Text.Basic

/-!
# Shapes of lines

How the first line of each kind of block looks, told from the visible text
of the line, that is, the text after the indentation. Marks that fill
their line need a line end after them, which the last line of a source may
lack.
-/

namespace Crosslink.Markdown

/-! ## Headings and rules -/

/-- One to six number signs before a blank or the line end: level and
text of the heading. -/
def headingShape? (line : ContentLine) : Option (Nat × List Char) :=
  let level := (line.visible.takeWhile (· = '#')).length
  let text := line.visible.dropWhile (· = '#')
  if 1 ≤ level ∧ level ≤ 6 ∧ (text.take 1).all isBlankChar
      ∧ (text ≠ [] ∨ line.isEnded) then
    some (level, text)
  else none

def underline? (line : ContentLine) : Option Char :=
  match line.visible with
  | c :: cs =>
    if (c = '=' ∨ c = '-') ∧ isBlankText (cs.dropWhile (· = c))
        ∧ line.isEnded then
      some c
    else none
  | [] => none

/-- Three or more of the same mark and nothing else but blanks. -/
def isThematicBreak (line : ContentLine) : Bool :=
  match line.visible with
  | c :: cs =>
    (c == '-' || c == '_' || c == '*')
      && cs.all (fun d => d == c || isBlankChar d) && 2 ≤ cs.count c
      && line.isEnded
  | [] => false

/-! ## Fences -/

/-- The marks that open fenced code. -/
structure Fence where
  mark : Char
  length : Nat
deriving Repr, DecidableEq

/-- An opening fence and the text after it. -/
def fence? (visible : List Char) : Option (Fence × List Char) :=
  match visible with
  | [] => none
  | c :: _ =>
    let length := (visible.takeWhile (· = c)).length
    let info := visible.dropWhile (· = c)
    if 3 ≤ length ∧ (c = '~' ∨ (c = '\x60' ∧ '\x60' ∉ info)) then
      some (⟨c, length⟩, info)
    else none

def Fence.isClosedBy (fence : Fence) (line : ContentLine) : Bool :=
  let marks := line.visible.takeWhile (· = fence.mark)
  line.indent ≤ 3 && fence.length ≤ marks.length
    && isBlankText (line.visible.drop marks.length) && line.isEnded

/-! ## Containers -/

/-- The place after the marker of a quote and one blank. -/
def quoteMarker? (p : Position) : Option Position :=
  match p.visible with
  | '>' :: _ =>
    let q := p.passVisible 1
    some (q.skip (min 1 q.indent))
  | _ => none

structure ListMarker where
  /-- The bullet, or what follows the number. -/
  symbol : Char
  /-- Columns from the start of the marker line to the content. -/
  indent : Nat
  /-- The item is empty so far. -/
  bare : Bool
  /-- The number has one digit, or the marker is a bullet. -/
  short : Bool
deriving Repr, DecidableEq

/-- Bullet or number at the start of a text: its symbol and its length. -/
def listSymbol? (visible : List Char) : Option (Char × Nat) :=
  match visible with
  | [] => none
  | c :: _ =>
    if c = '-' ∨ c = '+' ∨ c = '*' then some (c, 1)
    else
      let digits := visible.takeWhile Char.isDigit
      match visible.drop digits.length with
      | d :: _ =>
        if (d = '.' ∨ d = ')') ∧ 1 ≤ digits.length ∧ digits.length ≤ 9 then
          some (d, digits.length + 1)
        else none
      | [] => none

/-- A list marker and the place where the content of its item starts. A
blank or a line end has to follow the marker; of more than four blanks
only the first one belongs to it. -/
def listMarker? (line : ContentLine) : Option (ListMarker × Position) :=
  match listSymbol? line.visible with
  | none => none
  | some (symbol, length) =>
    let q := line.place.passVisible length
    let width := line.indent + length
    let short := decide (length ≤ 2)
    if q.isBlank ∧ line.isEnded then
      some (⟨symbol, width + 1, true, short⟩, q)
    else if q.indent = 0 then none
    else if q.indent ≤ 4 then
      some (⟨symbol, width + q.indent, false, short⟩, q.skip q.indent)
    else some (⟨symbol, width + 1, false, short⟩, q.skip 1)

theorem length_quoteMarker?_lt {p q : Position}
    (h : quoteMarker? p = some q) : q.rest.length < p.rest.length := by
  unfold quoteMarker? at h
  split at h
  case h_1 hv =>
    cases h
    exact Nat.lt_of_le_of_lt (Position.length_skip_le ..)
      (Position.length_passVisible_lt Nat.one_pos (by simp [hv]))
  case h_2 => simp at h

theorem pos_of_listSymbol? {cs : List Char} {symbol : Char} {length : Nat}
    (h : listSymbol? cs = some (symbol, length)) : 0 < length := by
  unfold listSymbol? at h
  split at h
  · simp at h
  · split at h
    · simp_all
      omega
    · simp only at h
      split at h
      · split at h
        · simp_all
          omega
        · simp at h
      · simp at h

theorem length_listMarker?_lt {line : ContentLine} {q : Position}
    {marker : ListMarker} (h : listMarker? line = some (marker, q)) :
    q.rest.length < line.place.rest.length := by
  unfold listMarker? at h
  split at h
  · simp at h
  · rename_i symbol length hsymbol
    have hpass :
        (line.place.passVisible length).rest.length
          < line.place.rest.length :=
      Position.length_passVisible_lt (pos_of_listSymbol? hsymbol)
        (by
          intro hv
          rw [ContentLine.visible, hv] at hsymbol
          simp [listSymbol?] at hsymbol)
    have hskip := Position.length_skip_le (line.place.passVisible length)
    simp only at h
    split at h
    · cases h; exact hpass
    · split at h
      · simp at h
      · split at h
        · cases h; exact Nat.lt_of_le_of_lt (hskip _) hpass
        · cases h; exact Nat.lt_of_le_of_lt (hskip _) hpass

/-! ## Tables -/

/-- Characters that may begin a block of another kind. No table begins
with one of them. -/
def isBlockMark (c : Char) : Bool :=
  c.isDigit || ['*', '_', '>', '#', '=', '+', '-', '<', '~', '\x60'].contains c

/-- Counts the cell borders of a row that are not escaped, and tells
whether the last visible character is one. -/
def borders (count : Nat) (atEnd : Bool) : List Char → Nat × Bool
  | [] => (count, atEnd)
  | '|' :: cs => borders (count + 1) true cs
  | '\\' :: '|' :: cs => borders count false cs
  | '\\' :: '\\' :: cs => borders count false cs
  | c :: cs => borders count (isBlankChar c && atEnd) cs

/-- The text after a border in front. -/
def dropBorder : List Char → List Char
  | '|' :: cs => cs
  | cs => cs

/-- Number of cells of a header row, which needs a border other than one
in front. -/
def headerCells? (visible : List Char) : Option Nat :=
  let (count, atEnd) := borders 0 false (dropBorder visible)
  if count = 0 ∨ (visible.take 1).any isBlockMark then none
  else if atEnd then some count
  else some (count + 1)

/-- Hyphens with an optional colon on either side. -/
def isDelimiterCell (cell : List Char) : Bool :=
  let cell := (Text.dropEndWhile isBlankChar cell).dropWhile isBlankChar
  let inner :=
    if cell.head? = some ':' then cell.drop 1 else cell
  let hyphens :=
    if inner.getLast? = some ':' then inner.dropLast else inner
  !hyphens.isEmpty && hyphens.all (· == '-')

/-- Number of cells of the row under a header row. -/
def delimiterCells? (visible : List Char) : Option Nat :=
  let row := Text.dropEndWhile isBlankChar visible
  let inner := dropBorder row
  let inner :=
    if inner.getLast? = some '|' then inner.dropLast else inner
  let cells := inner.splitOn '|'
  if '|' ∈ row ∧ cells.all isDelimiterCell then some cells.length else none

/-- A header row and the row under it. -/
def isTableStart (header delimiter : ContentLine) : Bool :=
  delimiter.isEnded && (headerCells? header.visible).isSome
    && headerCells? header.visible == delimiterCells? delimiter.visible

end Crosslink.Markdown
