import Crosslink.Config.Layer
import Crosslink.Toml.Document

/-!
# Layers in TOML

How a layer is written: `first_header_as_title`, `target_formats`, and
under `links` the table `targets` and the list `mappings`. A key that is
not known makes the layer unreadable, and so does a value of another kind.
Settings with fixed keys may also be written as an array of their values
in alphabetical order of the keys. A date or a time counts as a table of
one text.
-/

namespace Crosslink

namespace ConfigLayer

open Toml (Table Value)

/-- The settings of a table with fixed keys, in the order of the keys. -/
def settings? (keys : List String) : Value → Option (List (Option Value))
  | .table _ entries =>
    if entries.all fun entry => keys.contains entry.1 then
      some (keys.map fun key => entries.lookup key)
    else none
  | .array items => some ((List.range keys.length).map fun i => items[i]?)
  | .tables items => some ((List.range keys.length).map fun i => items[i]?)
  | _ => none

def absentOr {α : Type} (read : Value → Option α) :
    Option Value → Option (Option α)
  | none => some none
  | some value => (read value).map some

def truth? : Value → Option Bool
  | .truth value => some value
  | _ => none

def text? : Value → Option String
  | .text value => some value
  | _ => none

def list? {α : Type} (read : Value → Option α) : Value → Option (List α)
  | .array items => items.mapM read
  | .tables items => items.mapM read
  | _ => none

/-- The name under which a date or a time stands if it is read as a
table. -/
def momentKey : String := "$__toml_private_datetime"

/-- The link targets, by name. -/
def targets? : Value → Option (Dictionary String)
  | .moment text => some (.ofList [(momentKey, text)])
  | .table _ entries =>
    (entries.mapM fun entry => (text? entry.2).map (entry.1, ·)).map .ofList
  | _ => none

def mapping? (value : Value) : Option WrittenMapping :=
  match settings? ["external_url", "internal_path"] value with
  | some [some url, some path] => do return ⟨← text? url, ← text? path⟩
  | _ => none

/-- The mappings and targets under `links`. -/
def links? (value : Value) :
    Option (List WrittenMapping × Dictionary String) :=
  match settings? ["mappings", "targets"] value with
  | some [mappings, targets] => do
    let mappings ← absentOr (list? mapping?) mappings
    let targets ← absentOr targets? targets
    return (mappings.getD [], targets.getD .empty)
  | _ => none

def ofTable? (table : Table) : Option ConfigLayer :=
  let keys := ["first_header_as_title", "links", "target_formats"]
  match settings? keys table.toValue with
  | some [title, links, formats] => do
    let title ← absentOr truth? title
    let links ← absentOr links? links
    let formats ← absentOr (list? text?) formats
    let (mappings, targets) := links.getD ([], .empty)
    return { firstHeaderAsTitle := title
             targetFormats := formats
             targets := targets
             mappings := mappings }
  | _ => none

def parse? (source : String) : Option ConfigLayer :=
  (Toml.parse? source).bind ofTable?

end ConfigLayer

end Crosslink
