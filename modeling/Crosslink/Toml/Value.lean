/-!
# TOML values

The tables of a file and what they hold. A table knows how it came about,
because that decides whether a later part of the file may add to it: a
table written in braces is closed, one with a header may not be opened
again, one that only stands on the way to another may still get its own
header.
-/

namespace Crosslink.Toml

/-- How a table came about. -/
inductive TableKind where
  /-- By its own header. -/
  | headed
  /-- On the way to a table with a header. -/
  | implied
  /-- On the way of a dotted key. -/
  | dotted
  /-- Written in braces. -/
  | closed
deriving Repr, DecidableEq

/-- A value. -/
inductive Value where
  | text (value : String)
  | truth (value : Bool)
  | number
  /-- A date or a time. -/
  | moment (text : String)
  | array (items : List Value)
  /-- Tables that were added one by one under the same header. -/
  | tables (items : List Value)
  | table (kind : TableKind) (entries : List (String × Value))

/-- A table on its own. -/
structure Table where
  kind : TableKind
  entries : List (String × Value)

namespace Table

def empty (kind : TableKind) : Table := ⟨kind, []⟩

def toValue (t : Table) : Value := .table t.kind t.entries

def get? (t : Table) (key : String) : Option Value := t.entries.lookup key

/-- Replaces the value of a key in a list of entries, or appends it. -/
def put (key : String) (value : Value) :
    List (String × Value) → List (String × Value)
  | [] => [(key, value)]
  | (other, old) :: entries =>
    if other = key then (key, value) :: entries
    else (other, old) :: put key value entries

def set (t : Table) (key : String) (value : Value) : Table :=
  { t with entries := put key value t.entries }

/-! ## Reaching into a table -/

/-- Changes the table that a value is, or the last one of several. A
dotted key may not reach into a table with a header. -/
def changeInside (dotted : Bool) (change : Table → Option Table) :
    Value → Option Value
  | .table kind entries =>
    if kind = .closed ∨ (dotted ∧ kind = .headed) then none
    else (change ⟨kind, entries⟩).map toValue
  | .tables items =>
    match items.getLast? with
    | some (.table kind entries) =>
      (change ⟨kind, entries⟩).map fun t =>
        .tables (items.dropLast ++ [t.toValue])
    | _ => none
  | _ => none

/-- Changes the table at the end of a path of keys; tables on the way are
made if they are missing. -/
def changeAt (dotted : Bool) (change : Table → Option Table) :
    (path : List String) → Table → Option Table
  | [], t => change t
  | key :: path, t =>
    let fresh := Table.empty (if dotted then .dotted else .implied)
    let child := (t.get? key).getD fresh.toValue
    (changeInside dotted (changeAt dotted change path) child).map (t.set key)

/-! ## The three kinds of lines -/

/-- A key may be set once. The table of a dotted key must have come about
by dotted keys. -/
def assign (afterDots : Bool) (key : String) (value : Value) (t : Table) :
    Option Table :=
  if decide (t.kind = .dotted) ≠ afterDots then none
  else if (t.get? key).isSome then none
  else some (t.set key value)

/-- Sets a key given by its path. -/
def assignPath (path : List String) (value : Value) (t : Table) :
    Option Table :=
  match path.reverse with
  | [] => none
  | key :: above =>
    t.changeAt true (assign (!above.isEmpty) key value) above.reverse

def openTable (key : String) (t : Table) : Option Table :=
  match t.get? key with
  | none => some (t.set key (.table .headed []))
  | some (.table .implied entries) => some (t.set key (.table .headed entries))
  | some _ => none

/-- Adds one more table under a double header. -/
def addTable (key : String) (t : Table) : Option Table :=
  match t.get? key with
  | none => some (t.set key (.tables [.table .headed []]))
  | some (.tables items) =>
    some (t.set key (.tables (items ++ [.table .headed []])))
  | some _ => none

/-- Carries out a header given by its path. -/
def atHeader (enter : String → Table → Option Table) (path : List String)
    (t : Table) : Option Table :=
  match path.reverse with
  | [] => none
  | key :: above => t.changeAt false (enter key) above.reverse

end Table

end Crosslink.Toml
