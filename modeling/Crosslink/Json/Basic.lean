/-!
# JSON values

The values that machine-readable output is made of. An object keeps its
fields in the order in which they are written. Numbers are integers; any
other number is kept as its text and is never read.
-/

namespace Crosslink

/-- A JSON value. -/
inductive Json where
  | null
  | bool (value : Bool)
  | integer (value : Int)
  | decimal (text : String)
  | text (value : String)
  | array (items : List Json)
  | object (fields : List (String × Json))

instance : Inhabited Json := ⟨.null⟩

namespace Json

/-! ## Building -/

def natural (n : Nat) : Json := .integer n

/-- A value that may be absent. -/
def optional {α : Type} (write : α → Json) : Option α → Json
  | none => .null
  | some value => write value

def texts (values : List String) : Json := .array (values.map .text)

/-! ## Looking inside -/

def field? : Json → String → Option Json
  | .object fields, name => fields.lookup name
  | _, _ => none

def asText? : Json → Option String
  | .text value => some value
  | _ => none

def asBool? : Json → Option Bool
  | .bool value => some value
  | _ => none

/-- A natural number below `bound`. -/
def asNatural? (bound : Nat) : Json → Option Nat
  | .integer (.ofNat n) => if n < bound then some n else none
  | _ => none

def asChar? : Json → Option Char
  | .text value =>
    match value.toList with
    | [c] => some c
    | _ => none
  | _ => none

def asOptionalText? : Json → Option (Option String)
  | .null => some none
  | .text value => some (some value)
  | _ => none

def textField? (j : Json) (name : String) : Option String :=
  (j.field? name).bind asText?

def optionalTextField? (j : Json) (name : String) : Option (Option String) :=
  match j.field? name with
  | none => some none
  | some value => value.asOptionalText?

end Json

end Crosslink
