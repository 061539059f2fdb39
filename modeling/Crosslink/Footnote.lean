import Crosslink.Markup.Block

/-!
# Footnote numbering

Footnote definitions are numbered in document order. A definition with an
explicit number shows that number. Plain and labelled auto-numbered
definitions share one display sequence starting at 1. Auto-symbol
definitions show the symbols in turn, doubled on the second round, tripled
on the third. A labelled definition with an empty label gets nothing.

References to plain auto-numbered and auto-symbol footnotes are paired
with the definitions by position (`FootnoteCursor`).
-/

namespace Crosslink

/-- Final id and display label of one footnote. -/
structure NumberedFootnote where
  id : String
  label : String
deriving Repr, DecidableEq

/-! ## The four schemes -/

def footnoteSymbols : List Char :=
  ['*', '†', '‡', '§', '¶', '#', '♠', '♥', '♦', '♣']

/-- The label of the auto-symbol footnote at `position`. -/
def autosymbol (position : Nat) : String :=
  let symbol := footnoteSymbols.getD (position % footnoteSymbols.length) '*'
  String.ofList
    (List.replicate (position / footnoteSymbols.length + 1) symbol)

namespace NumberedFootnote

def numeric (number : Nat) : NumberedFootnote :=
  ⟨"__fn-" ++ toString number, toString number⟩

/-- The auto-numbered footnote at `display` in the shared sequence. -/
def autonumber (display : Nat) : NumberedFootnote :=
  ⟨"__fnauto-" ++ toString display, toString display⟩

/-- The labelled footnote at `display` in the shared sequence. -/
def labelled (label : String) (display : Nat) : NumberedFootnote :=
  ⟨"__fnl-" ++ label, toString display⟩

/-- The auto-symbol footnote at `position`. -/
def symbol (position : Nat) : NumberedFootnote :=
  ⟨"__fns-" ++ toString (position + 1), autosymbol position⟩

end NumberedFootnote

/-! ## Numbering a document -/

/-- One definition and what it was assigned. -/
structure FootnoteEntry where
  label : FootnoteLabel
  assigned : Option NumberedFootnote
deriving Repr, DecidableEq

/-- Numbers definitions after `displayed` auto-numbered and `symbols`
auto-symbol ones. -/
def numberFootnotes (displayed symbols : Nat) :
    List FootnoteLabel → List FootnoteEntry
  | [] => []
  | .numeric number :: labels =>
    ⟨.numeric number, some (.numeric number)⟩
      :: numberFootnotes displayed symbols labels
  | .autonumber :: labels =>
    ⟨.autonumber, some (.autonumber (displayed + 1))⟩
      :: numberFootnotes (displayed + 1) symbols labels
  | .labelled label :: labels =>
    if label = "" then
      ⟨.labelled label, none⟩ :: numberFootnotes displayed symbols labels
    else
      ⟨.labelled label, some (.labelled label (displayed + 1))⟩
        :: numberFootnotes (displayed + 1) symbols labels
  | .autosymbol :: labels =>
    ⟨.autosymbol, some (.symbol symbols)⟩
      :: numberFootnotes displayed (symbols + 1) labels

/-- The numbering of all footnote definitions of one document. -/
structure FootnoteNumbering where
  entries : List FootnoteEntry
deriving Repr, DecidableEq

namespace FootnoteNumbering

/-- Numbers the definitions, given their labels in document order. -/
def assign (labels : List FootnoteLabel) : FootnoteNumbering :=
  ⟨numberFootnotes 0 0 labels⟩

/-- What the definition at `ordinal` was assigned. -/
def definition (n : FootnoteNumbering) (ordinal : Nat) :
    Option NumberedFootnote :=
  n.entries[ordinal]?.bind (·.assigned)

/-- What the definitions with this label were assigned, in order. -/
def assignedTo (n : FootnoteNumbering) (label : FootnoteLabel) :
    List NumberedFootnote :=
  n.entries.filterMap fun e => if e.label = label then e.assigned else none

/-- The labelled footnote; the first one wins on a repeated label. -/
def labelled (n : FootnoteNumbering) (label : String) :
    Option NumberedFootnote :=
  (n.assignedTo (.labelled label)).head?

end FootnoteNumbering

/-! ## Pairing references by position -/

/-- How many plain auto-numbered and auto-symbol references were paired. -/
structure FootnoteCursor where
  autonumbers : Nat := 0
  autosymbols : Nat := 0
deriving Repr, DecidableEq

namespace FootnoteCursor

def nextAutonumber (c : FootnoteCursor) (n : FootnoteNumbering) :
    Option NumberedFootnote × FootnoteCursor :=
  ((n.assignedTo .autonumber)[c.autonumbers]?,
   { c with autonumbers := c.autonumbers + 1 })

/-- The footnote of the next auto-symbol reference. -/
def nextAutosymbol (c : FootnoteCursor) (n : FootnoteNumbering) :
    Option NumberedFootnote × FootnoteCursor :=
  ((n.assignedTo .autosymbol)[c.autosymbols]?,
   { c with autosymbols := c.autosymbols + 1 })

end FootnoteCursor

end Crosslink
