import Crosslink.Markdown.Line
import Crosslink.Text.Basic

/-!
# Link definitions

A paragraph may begin with link definitions: a label in brackets, a colon,
a destination and an optional title. Destination and title may each stand
on the next line; nothing else may stand on the last line. The labels of
task items are no labels.
-/

namespace Crosslink.Markdown

/-- A definition as written: label with brackets, destination with its
angle brackets, title with its quotes. -/
structure WrittenDefinition where
  label : List Char
  destination : List Char
  title : Option (List Char)
deriving Repr, DecidableEq

def afterLineEnd? : List Char → Option (List Char)
  | '\r' :: '\n' :: cs => some cs
  | '\n' :: cs => some cs
  | '\r' :: cs => some cs
  | _ => none

/-- Passes blanks and at most one line end. -/
def passGap (cs : List Char) : List Char :=
  let cs := cs.dropWhile isBlankChar
  match afterLineEnd? cs with
  | some next => next.dropWhile isBlankChar
  | none => cs

/-- What follows the line, if nothing visible is left of it. -/
def afterLine? (cs : List Char) : Option (List Char) :=
  match cs.dropWhile isBlankChar with
  | [] => some []
  | cs => afterLineEnd? cs

/-- Puts characters in front of what was read. -/
def readBefore (front : List Char) :
    Option (List Char × List Char) → Option (List Char × List Char)
  | some (read, rest) => some (front ++ read, rest)
  | none => none

/-! ## Label -/

/-- A label up to its closing bracket. -/
def labelBody? : List Char → Option (List Char × List Char)
  | [] => none
  | ']' :: cs => some ([], cs)
  | '[' :: _ => none
  | '\\' :: c :: cs => readBefore ['\\', c] (labelBody? cs)
  | c :: cs => readBefore [c] (labelBody? cs)

/-- A label without anything visible, or that of a task item. -/
def isTaskLabel (body : List Char) : Bool :=
  body.all (fun c => isBlankChar c || c == '\n' || c == '\r')
    || body == ['x'] || body == ['X']

/-- A label in brackets, and what follows its colon. -/
def label? : List Char → Option (List Char × List Char)
  | '[' :: cs =>
    match labelBody? cs with
    | some (body, ':' :: rest) =>
      if isTaskLabel body then none else some ('[' :: body ++ [']'], rest)
    | _ => none
  | _ => none

/-! ## Destination -/

/-- A destination in angle brackets, after the first one. -/
def angleBody? : List Char → Option (List Char × List Char)
  | [] => none
  | '>' :: cs => some (['>'], cs)
  | '<' :: _ => none
  | '\n' :: _ => none
  | '\r' :: _ => none
  | '\\' :: c :: cs =>
    if c = '\n' ∨ c = '\r' then none
    else readBefore ['\\', c] (angleBody? cs)
  | c :: cs => readBefore [c] (angleBody? cs)

/-- A destination without angle brackets: no blanks and no control
characters, parentheses in pairs. -/
def bareBody? (depth : Nat) : List Char → Option (List Char × List Char)
  | [] => if depth = 0 then some ([], []) else none
  | '\\' :: c :: cs =>
    if c.toNat ≤ 0x20 then
      if depth = 0 then some (['\\'], c :: cs) else none
    else readBefore ['\\', c] (bareBody? depth cs)
  | '(' :: cs => readBefore ['('] (bareBody? (depth + 1) cs)
  | ')' :: cs =>
    match depth with
    | 0 => some ([], ')' :: cs)
    | depth + 1 => readBefore [')'] (bareBody? depth cs)
  | c :: cs =>
    if c.toNat ≤ 0x20 ∨ c.toNat = 0x7f then
      if depth = 0 then some ([], c :: cs) else none
    else readBefore [c] (bareBody? depth cs)

def definitionDestination? : List Char → Option (List Char × List Char)
  | '<' :: cs => readBefore ['<'] (angleBody? cs)
  | cs =>
    match bareBody? 0 cs with
    | some ([], _) => none
    | found => found

/-! ## Title -/

/-- A title up to its closing mark. A title in parentheses holds no other
parenthesis. -/
def titleBody? (closing : Char) : List Char → Option (List Char × List Char)
  | [] => none
  | '\\' :: c :: cs => readBefore ['\\', c] (titleBody? closing cs)
  | c :: cs =>
    if c = closing then some ([c], cs)
    else if closing = ')' ∧ c = '(' then none
    else readBefore [c] (titleBody? closing cs)

/-- A title in quotes or parentheses. -/
def definitionTitle? : List Char → Option (List Char × List Char)
  | '"' :: cs => readBefore ['"'] (titleBody? '"' cs)
  | '\'' :: cs => readBefore ['\''] (titleBody? '\'' cs)
  | '(' :: cs => readBefore ['('] (titleBody? ')' cs)
  | _ => none

/-- A title after a gap, and what follows its line. -/
def spacedTitle? (cs : List Char) : Option (List Char × List Char) :=
  if (passGap cs).length = cs.length then none
  else
    match definitionTitle? (passGap cs) with
    | some (title, rest) => (afterLine? rest).map (title, ·)
    | none => none

/-! ## Definition -/

/-- A definition at the start of a text, and what follows its last line. -/
def definition? (cs : List Char) : Option (WrittenDefinition × List Char) :=
  match label? (cs.dropWhile isBlankChar) with
  | none => none
  | some (label, rest) =>
    match definitionDestination? (passGap rest) with
    | none => none
    | some (destination, rest) =>
      match spacedTitle? rest with
      | some (title, rest) => some (⟨label, destination, some title⟩, rest)
      | none => (afterLine? rest).map (⟨label, destination, none⟩, ·)

end Crosslink.Markdown
