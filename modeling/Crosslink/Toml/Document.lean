import Crosslink.Toml.Scalar
import Crosslink.Toml.Token
import Crosslink.Toml.Value

/-!
# TOML documents

A file is a sequence of lines: headers, which open a table, and
assignments to keys of the open table. Brackets are paired first (`nest`);
a line then ends at a line end outside brackets. `parse?` gives the table
that the file describes, or nothing if the file is not well-formed.
-/

namespace Crosslink.Toml

/-! ## Pairing brackets -/

/-- A token, or what stands between two brackets. -/
inductive Item where
  | token (token : Token)
  | group (bracket : Bracket) (inner : List Item)

/-- Brackets nest less deep than this, and dotted keys are shorter. -/
def depthLimit : Nat := 80

/-- Pairs brackets. `outer` holds the brackets still open with what stands
before them, `current` what was read since, latest first. -/
def nest (outer : List (Bracket × List Item)) (current : List Item) :
    List Token → Option (List Item)
  | [] => if outer.isEmpty then some current.reverse else none
  | .opening bracket :: tokens =>
    if outer.length + 1 < depthLimit then
      nest ((bracket, current) :: outer) [] tokens
    else none
  | .closing bracket :: tokens =>
    match outer with
    | [] => none
    | (opened, before) :: outer =>
      if opened = bracket then
        nest outer (.group bracket current.reverse :: before) tokens
      else none
  | token :: tokens => nest outer (.token token :: current) tokens

/-! ## Values -/

/-- A token, or the value of a group if it has one. -/
inductive Piece where
  | token (token : Token)
  | value (value : Option Value)

namespace Piece

def isBlank : Piece → Bool
  | token (.blank _) => true
  | _ => false

/-- A blank or a line end. -/
def isSpace : Piece → Bool
  | token (.blank _) => true
  | token .lineEnd => true
  | _ => false

def isComma : Piece → Bool
  | token .comma => true
  | _ => false

def isEquals : Piece → Bool
  | token .equals => true
  | _ => false

def bareText? : Piece → Option (List Char)
  | token (.bare run) => some run
  | token .dot => some ['.']
  | token (.blank c) => some [c]
  | _ => none

end Piece

/-- Drops pieces satisfying `p` on both sides. -/
def trimPieces (p : Piece → Bool) (pieces : List Piece) : List Piece :=
  ((pieces.dropWhile p).reverse.dropWhile p).reverse

/-- The pieces between commas. -/
def splitAtCommas : List Piece → List (List Piece) :=
  List.splitOnP Piece.isComma

def bareValue? (word : List Char) : Option Value :=
  if word = "true".toList then some (.truth true)
  else if word = "false".toList then some (.truth false)
  else if isNumber word then some .number
  else (moment? word).map fun text => .moment (String.ofList text)

/-- The value written by some pieces without space around them. -/
def valueOf? : List Piece → Option Value
  | [.value value] => value
  | [.token (.text value _)] => some (.text (String.ofList value))
  | pieces =>
    match pieces.mapM Piece.bareText? with
    | some runs => bareValue? runs.flatten
    | none => none

def keyOf? : Token → Option String
  | .bare run =>
    if run.all fun c => c.isAlphanum || c == '_' || c == '-' then
      some (String.ofList run)
    else none
  | .text value false => some (String.ofList value)
  | _ => none

/-- The keys of a dotted key without blanks. -/
def keyPath? : List Token → Option (List String)
  | [token] => (keyOf? token).map ([·])
  | token :: .dot :: tokens =>
    match keyOf? token with
    | some key => (keyPath? tokens).map (key :: ·)
    | none => none
  | _ => none

def Piece.token? : Piece → Option Token
  | .token t => some t
  | .value _ => none

def keysOf? (pieces : List Piece) : Option (List String) :=
  match ((pieces.filter (!·.isBlank)).mapM Piece.token?).bind keyPath? with
  | some keys => if keys.length < depthLimit then some keys else none
  | none => none

def assignmentOf? (pieces : List Piece) : Option (List String × Value) :=
  match pieces.dropWhile (!·.isEquals) with
  | [] => none
  | _ :: right => do
    let keys ← keysOf? (pieces.takeWhile (!·.isEquals))
    let value ← valueOf? (trimPieces Piece.isBlank right)
    return (keys, value)

/-- The items of an array; a comma may follow the last one. -/
def arrayItems? : List (List Piece) → Option (List Value)
  | [] => some []
  | part :: parts =>
    let part := trimPieces Piece.isSpace part
    if part.isEmpty then if parts.isEmpty then some [] else none
    else do return (← valueOf? part) :: (← arrayItems? parts)

/-- A table in braces, entry by entry. -/
def closedTable? (t : Table) : List (List Piece) → Option Table
  | [] => some t
  | part :: parts => do
    let (keys, value) ← assignmentOf? part
    closedTable? (← t.assignPath keys value) parts

def groupValue? (bracket : Bracket) (pieces : List Piece) : Option Value :=
  match bracket with
  | .square => (arrayItems? (splitAtCommas pieces)).map .array
  | .brace =>
    if pieces.all Piece.isBlank then some (.table .closed [])
    else
      (closedTable? (.empty .headed) (splitAtCommas pieces)).map fun t =>
        .table .closed t.entries

mutual

/-- The value of a group is worked out from the inside. -/
def Item.toPiece : Item → Piece
  | .token token => .token token
  | .group bracket inner => .value (groupValue? bracket (Items.toPieces inner))

def Items.toPieces : List Item → List Piece
  | [] => []
  | item :: items => item.toPiece :: Items.toPieces items

end

/-! ## Lines -/

def Item.isLineEnd : Item → Bool
  | .token .lineEnd => true
  | _ => false

/-- Cuts at the line ends outside brackets. -/
def splitLines : List Item → List (List Item) := List.splitOnP Item.isLineEnd

/-- A file as far as it is read. -/
structure Progress where
  root : Table
  /-- The path of the open table. -/
  path : List String

namespace Progress

def header (p : Progress) (enter : String → Table → Option Table)
    (inner : List Item) : Option Progress := do
  let path ← keysOf? (Items.toPieces inner)
  return ⟨← p.root.atHeader enter path, path⟩

def assignment (p : Progress) (line : List Item) : Option Progress := do
  let (keys, value) ← assignmentOf? (Items.toPieces line)
  let root ← p.root.changeAt false (·.assignPath keys value) p.path
  return { p with root := root }

def isBlank : Item → Bool
  | .token (.blank _) => true
  | _ => false

def line (p : Progress) (items : List Item) : Option Progress :=
  match items.filter (!isBlank ·), items.dropWhile isBlank with
  | [], _ => some p
  | [.group .square _], .group .square [.group .square inner] :: _ =>
    p.header Table.addTable inner
  | [.group .square _], .group .square inner :: _ =>
    p.header Table.openTable inner
  | _, items => p.assignment items

/-- Reads all lines. -/
def run (p : Progress) : List (List Item) → Option Progress
  | [] => some p
  | items :: lines =>
    match p.line items with
    | some p => p.run lines
    | none => none

end Progress

/-- The table that a file describes. -/
def parse? (text : String) : Option Table := do
  let items ← nest [] [] (← tokens text.toList)
  let start : Progress := ⟨.empty .headed, []⟩
  return (← start.run (splitLines items)).root

end Crosslink.Toml
