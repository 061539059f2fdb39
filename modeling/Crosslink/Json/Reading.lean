import Crosslink.Json.Basic
import Crosslink.Markup.Block

/-!
# Markup from JSON

Reads blocks, spans and diagnostics back from JSON. A record is an object
or the array of its fields in alphabetical order; a diagnostic is a record
of kind, message and path. In an object, fields that are not known are
ignored and an optional field may be missing; everything else that does
not fit makes the whole value unreadable. Paths are parsed.

A node is a record with its kind under a tag, or in front if it is an
array. Inside another node the number of the kind may stand for its name,
counted in the order of the tables below (`Place`).

A value does not show which node it is meant to be, so `Json.read` reads
it as everything it could be at once, from the parts to the whole.
-/

namespace Crosslink

namespace Json

/-! ## Records -/

/-- Names of kinds, each with the names of its fields. -/
abbrev Kinds := List (String × List String)

/-- Where a value stands. -/
inductive Place where
  /-- Not inside a node. -/
  | outermost
  /-- Inside a node, where a kind may be given by its number. -/
  | inner
deriving Repr, DecidableEq

/-- What a composite value is made of. -/
inductive Parts (α : Type) where
  | inOrder (items : List α)
  | named (fields : List (String × α))

/-- The parts of a composite value. -/
def parts? : Json → Option (Parts Json)
  | .array items => some (.inOrder items)
  | .object fields => some (.named fields)
  | _ => none

def kindName? (place : Place) (kinds : Kinds) : Json → Option String
  | .text name => some name
  | .integer (.ofNat n) =>
    match place with
    | .outermost => none
    | .inner => kinds[n]?.map (·.1)
  | _ => none

namespace Parts

def record? {α : Type} (names : List String) :
    Parts α → Option (List (String × α))
  | named fields => some fields
  | inOrder items =>
    if items.length = names.length then some (names.zip items) else none

/-- The kind of a node and its parts under the names of its fields. -/
def node? {α : Type} (value : α → Json) (place : Place) (tag : String)
    (kinds : Kinds) : Parts α → Option (String × List (String × α))
  | named fields => do
    let kind ← (value (← fields.lookup tag)).kindName? place kinds
    return (kind, fields)
  | inOrder [] => none
  | inOrder (first :: items) => do
    let kind ← (value first).kindName? place kinds
    return (kind, ← record? (← kinds.lookup kind) (inOrder items))

end Parts

def record? (names : List String) (j : Json) : Option Json := do
  return .object (← (← j.parts?).record? names)

def node? (place : Place) (tag : String) (kinds : Kinds) (j : Json) :
    Option (String × Json) := do
  let (kind, fields) ← (← j.parts?).node? id place tag kinds
  return (kind, .object fields)

/-! ## Kinds of nodes -/

def labelKinds : Kinds :=
  [("autonumber", []), ("autonumber_label", ["label"]), ("autosymbol", []),
   ("numeric", ["number"])]

/-- Kinds of final destinations. -/
def targetKinds : Kinds :=
  [("external", ["url"]),
   ("internal", ["absolute", "external_url", "relative"])]

def definitionTargetKinds : Kinds :=
  [("external", ["url"]), ("internal", ["path"])]

def invalidFields : List String := ["fallback", "kind", "message"]

def headerFields : List String := ["content", "id", "level"]

def referenceKinds : Kinds :=
  [("citation", ["label"]), ("footnote", ["label"]),
   ("image_id", ["alt", "id"]), ("image_path", ["alt", "path", "title"]),
   ("link_id", ["content", "id"]),
   ("link_path", ["content", "path", "title"])]

def spanKinds : Kinds :=
  [("citation_link", ["label", "reference"]), ("emphasized", ["content"]),
   ("footnote_link", ["id", "label"]), ("image", ["alt", "target", "title"]),
   ("invalid", invalidFields), ("link", ["content", "target", "title"]),
   ("literal", ["text"]), ("opaque", ["content", "kind"]),
   ("reference", ["kind", "source"]), ("strong", ["content"]),
   ("text", ["text"])]

def blockKinds : Kinds :=
  [("citation", ["content", "id", "label"]),
   ("code_block", ["code", "language"]),
   ("decorated_header", ["content", "decoration", "id"]),
   ("footnote", ["content", "id", "label"]),
   ("footnote_definition", ["content", "label"]),
   ("header", headerFields), ("internal_link_target", ["id"]),
   ("invalid", invalidFields), ("link_alias", ["id", "target"]),
   ("link_definition", ["id", "target", "title"]),
   ("opaque", ["content", "kind"]), ("paragraph", ["content"]),
   ("quoted_block", ["content"]), ("reference", ["kind", "source"]),
   ("rule", []), ("section", ["content", "header"]),
   ("title", ["content", "id"])]

/-! ## Parts without nested markup -/

def absolutePath? (j : Json) : Option AbsolutePath :=
  match j with
  | .text raw => (AbsolutePath.parse raw).toOption
  | _ => none

def relativePath? (j : Json) : Option RelativePath :=
  j.asText?.map RelativePath.parse

def writtenPath? (j : Json) : Option WrittenPath :=
  match j with
  | .text raw => (WrittenPath.parse raw).toOption
  | _ => none

def labelAt? (place : Place) (j : Json) : Option FootnoteLabel := do
  let (kind, j) ← j.node? place "kind" labelKinds
  match kind with
  | "autonumber" => return .autonumber
  | "autonumber_label" => return .labelled (← j.textField? "label")
  | "autosymbol" => return .autosymbol
  | "numeric" =>
    let number ← j.field? "number"
    return .numeric (← number.asNatural? FootnoteLabel.numberLimit)
  | _ => none

/-- A final destination. -/
def target? (j : Json) : Option Target := do
  let (kind, j) ← j.node? .inner "kind" targetKinds
  match kind with
  | "external" => return .external (← j.textField? "url")
  | "internal" =>
    return .internal
      { absolute := ← (← j.field? "absolute").absolutePath?
        externalUrl := ← j.optionalTextField? "external_url"
        relative := ← (← j.field? "relative").relativePath? }
  | _ => none

def definitionTarget? (j : Json) : Option DefinitionTarget := do
  let (kind, j) ← j.node? .inner "kind" definitionTargetKinds
  match kind with
  | "external" => return .external (← j.textField? "url")
  | "internal" => return .internal (← (← j.field? "path").writtenPath?)
  | _ => none

def decoration? (j : Json) : Option Decoration := do
  let j ← j.record? ["overline", "symbol"]
  return { symbol := ← (← j.field? "symbol").asChar?
           overline := ← (← j.field? "overline").asBool? }

/-- What may stand beside a name that needs nothing beside it. -/
def isNothing (place : Place) : Json → Bool
  | .null => true
  | .object [] => place == .inner
  | _ => false

/-- A kind of problem: its name, alone or as the only field of an
object. -/
def problemKindAt? (place : Place) : Json → Option ProblemKind
  | .text name => ProblemKind.ofName? name
  | .object [(name, value)] =>
    if value.isNothing place then ProblemKind.ofName? name else none
  | _ => none

/-- The problem of an invalid node or a diagnostic, read as an object. -/
def problemAt? (place : Place) (j : Json) : Option Problem := do
  return { kind := ← (← j.field? "kind").problemKindAt? place
           message := ← j.textField? "message" }

def footnoteLabel? (j : Json) : Option FootnoteLabel := j.labelAt? .outermost

def problemKind? (j : Json) : Option ProblemKind :=
  j.problemKindAt? .outermost

def diagnostic? (j : Json) : Option Diagnostic := do
  let j ← j.record? ["kind", "message", "path"]
  return { path := ← (← j.field? "path").absolutePath?
           problem := ← j.problemAt? .outermost }

/-! ## All readings of a value -/

/-- A value as everything it could be. -/
structure Reading where
  value : Json
  span : Option Span := none
  spans : Option (List Span) := none
  reference : Option ReferenceKind := none
  header : Option Header := none
  block : Option Block := none
  blocks : Option (List Block) := none

structure RecordReading where
  parts : List (String × Reading)

namespace RecordReading

def part? (r : RecordReading) (name : String) : Option Reading :=
  r.parts.lookup name

def field? (r : RecordReading) (name : String) : Option Json :=
  (r.part? name).map (·.value)

def text? (r : RecordReading) (name : String) : Option String :=
  (r.field? name).bind asText?

/-- The text in a field that may be null or absent. -/
def optionalText? (r : RecordReading) (name : String) :
    Option (Option String) :=
  match r.field? name with
  | none => some none
  | some value => value.asOptionalText?

/-- The spans in the field `content`. -/
def spans? (r : RecordReading) : Option (List Span) :=
  (r.part? "content").bind (·.spans)

/-- The blocks in the field `content`. -/
def blocks? (r : RecordReading) : Option (List Block) :=
  (r.part? "content").bind (·.blocks)

/-- What the reference in the field `kind` points at. -/
def reference? (r : RecordReading) : Option ReferenceKind :=
  (r.part? "kind").bind (·.reference)

/-- The problem in the fields `kind` and `message`. -/
def problem? (r : RecordReading) : Option Problem := do
  return { kind := ← (← r.field? "kind").problemKindAt? .inner
           message := ← r.text? "message" }

/-- The destination in the field `target`. -/
def target? (r : RecordReading) : Option Target :=
  (r.field? "target").bind Json.target?

/-- The path in the field `path`. -/
def path? (r : RecordReading) : Option WrittenPath :=
  (r.field? "path").bind writtenPath?

/-- The footnote label in the field `label`. -/
def label? (r : RecordReading) : Option FootnoteLabel :=
  (r.field? "label").bind (labelAt? .inner)

def asSpan? (r : RecordReading) : (kind : String) → Option Span
  | "text" => return .text (← r.text? "text")
  | "literal" => return .literal (← r.text? "text")
  | "emphasized" => return .emphasized (← r.spans?)
  | "strong" => return .strong (← r.spans?)
  | "opaque" => return .verbatim (← r.text? "kind") (← r.text? "content")
  | "reference" => return .reference (← r.reference?) (← r.text? "source")
  | "link" =>
    return .link (← r.spans?) (← r.target?) (← r.optionalText? "title")
  | "image" =>
    return .image (← r.text? "alt") (← r.target?) (← r.optionalText? "title")
  | "citation_link" =>
    return .citationLink (← r.text? "label") (← r.text? "reference")
  | "footnote_link" =>
    return .footnoteLink (← r.text? "id") (← r.text? "label")
  | "invalid" =>
    return .invalid (← (← r.part? "fallback").span) (← r.problem?)
  | _ => none

def asReference? (r : RecordReading) : (kind : String) → Option ReferenceKind
  | "citation" => return .citation (← r.text? "label")
  | "footnote" => return .footnote (← r.label?)
  | "image_id" => return .imageId (← r.text? "alt") (← r.text? "id")
  | "image_path" =>
    return .imagePath (← r.text? "alt") (← r.path?) (← r.optionalText? "title")
  | "link_id" => return .linkId (← r.spans?) (← r.text? "id")
  | "link_path" =>
    return .linkPath (← r.spans?) (← r.path?) (← r.optionalText? "title")
  | _ => none

def asHeader? (r : RecordReading) : Option Header := do
  return { content := ← r.spans?
           id := ← r.optionalText? "id"
           level := ← (← r.field? "level").asNatural? Header.levelLimit }

def asBlock? (r : RecordReading) : (kind : String) → Option Block
  | "paragraph" => return .paragraph (← r.spans?)
  | "code_block" =>
    return .codeBlock (← r.text? "code") (← r.optionalText? "language")
  | "rule" => return .rule
  | "opaque" => return .verbatim (← r.text? "kind") (← r.text? "content")
  | "header" => return .header (← r.asHeader?)
  | "decorated_header" =>
    return .decoratedHeader
      { content := ← r.spans?
        decoration := ← (← r.field? "decoration").decoration?
        id := ← r.optionalText? "id" }
  | "title" =>
    return .title { content := ← r.spans?, id := ← r.optionalText? "id" }
  | "section" =>
    return .sectionOf (← (← r.part? "header").header) (← r.blocks?)
  | "quoted_block" => return .quoted (← r.blocks?)
  | "internal_link_target" => return .anchor (← r.text? "id")
  | "link_definition" =>
    return .linkDefinition
      { id := ← r.text? "id"
        target := ← (← r.field? "target").definitionTarget?
        title := ← r.optionalText? "title" }
  | "link_alias" =>
    return .linkAlias { id := ← r.text? "id", target := ← r.text? "target" }
  | "citation" =>
    return .citation (← r.text? "label") (← r.optionalText? "id") (← r.blocks?)
  | "footnote_definition" =>
    return .footnoteDefinition (← r.label?) (← r.blocks?)
  | "footnote" =>
    return .footnote (← r.text? "id") (← r.text? "label") (← r.blocks?)
  | "reference" => return .reference (← r.reference?) (← r.text? "source")
  | "invalid" =>
    return .invalid (← (← r.part? "fallback").block) (← r.problem?)
  | _ => none

end RecordReading

/-- The readings of a node with its kind under a tag, as `read` makes of
its kind. -/
def readNode {α : Type} (tag : String) (kinds : Kinds)
    (read : RecordReading → String → Option α) (parts : Parts Reading) :
    Option α := do
  let (kind, fields) ← parts.node? Reading.value .inner tag kinds
  read ⟨fields⟩ kind

/-- A composite value as everything it could be. -/
def readParts (value : Json) (parts : Parts Reading) : Reading where
  value := value
  span := readNode "type" spanKinds RecordReading.asSpan? parts
  reference :=
    readNode "reference" referenceKinds RecordReading.asReference? parts
  header := (parts.record? headerFields).bind fun fields =>
    RecordReading.asHeader? ⟨fields⟩
  block := readNode "type" blockKinds RecordReading.asBlock? parts

mutual

/-- Reads a value as everything it could be. -/
def read : Json → Reading
  | .array items =>
    let readings := readItems items
    { readParts (.array items) (.inOrder readings) with
      spans := readings.mapM (·.span)
      blocks := readings.mapM (·.block) }
  | .object fields => readParts (.object fields) (.named (readFields fields))
  | value => { value := value }

def readItems : List Json → List Reading
  | [] => []
  | item :: items => item.read :: readItems items

def readFields : List (String × Json) → List (String × Reading)
  | [] => []
  | (name, value) :: fields => (name, value.read) :: readFields fields

end

/-! ## Values that stand alone -/

/-- The kind of a node is given by its name. -/
def namesKind : Json → Bool
  | .object fields => ((fields.lookup "type").bind asText?).isSome
  | .array (first :: _) => first.asText?.isSome
  | _ => false

def span? (j : Json) : Option Span :=
  if j.namesKind then j.read.span else none

def block? (j : Json) : Option Block :=
  if j.namesKind then j.read.block else none

def items? {α : Type} (read : Json → Option α) : Json → Option (List α)
  | .array items => items.mapM read
  | _ => none

def spans? (j : Json) : Option (List Span) := j.items? span?

def blocks? (j : Json) : Option (List Block) := j.items? block?

/-- What stands for an invalid node, read as `read` does, and its
problem. -/
def invalid? {α : Type} (read : Json → Option α) (j : Json) :
    Option (α × Problem) := do
  let j ← j.record? invalidFields
  return (← read (← j.field? "fallback"), ← j.problemAt? .outermost)

end Json

end Crosslink
