import Crosslink.Resolution.LinkId

/-!
# One pass over one document

A pass walks the blocks of a document from the first to the last and
replaces what it can: references become links, images, citation and
footnote links, footnote definitions become numbered footnotes, link
definitions and aliases disappear, and targets declared more than once
become invalid. What needs the tree stays in place while the tree is not
known. Every node that becomes invalid is reported once, after everything
inside it.
-/

namespace Crosslink

/-- What a pass keeps track of. -/
structure PassState where
  /-- Anonymous references met so far. -/
  anonymousNext : Nat := 0
  /-- Footnote definitions met so far. -/
  footnoteNext : Nat := 0
  /-- Auto-numbered and auto-symbol references met so far. -/
  cursor : FootnoteCursor := {}
  /-- Link ids looked up so far. -/
  cache : IdCache := []
  /-- Diagnostics in the order they arose. -/
  diagnostics : List Diagnostic := []

/-- A step of a pass. -/
abbrev Pass := StateM PassState

/-- What a link or an image shows. -/
inductive Appearance where
  | link (content : List Span)
  | image (alt : String)

namespace Appearance

def byId (a : Appearance) (id source : String) : Span :=
  match a with
  | link content => .reference (.linkId content id) source
  | image alt => .reference (.imageId alt id) source

def byPath (a : Appearance) (path : WrittenPath) (title : Option String)
    (source : String) : Span :=
  match a with
  | link content => .reference (.linkPath content path title) source
  | image alt => .reference (.imagePath alt path title) source

/-- The finished link or image. -/
def toSpan (a : Appearance) (target : Target) (title : Option String) : Span :=
  match a with
  | link content => .link content target title
  | image alt => .image alt target title

/-- The failure of a reference to an id that nothing is called. -/
def unresolved : Appearance → String → Failure
  | link _ => .unresolvedLink
  | image _ => .unresolvedImage

end Appearance

namespace Scope

/-! ## Reporting -/

def report (s : Scope) (failure : Failure) : Pass Unit :=
  modify fun state =>
    { state with
      diagnostics := state.diagnostics ++ [⟨s.document, failure.problem⟩] }

def invalidSpan (s : Scope) (fallback : Span) (failure : Failure) :
    Pass Span := do
  s.report failure
  return .invalid fallback failure.problem

def invalidBlock (s : Scope) (fallback : Block) (failure : Failure) :
    Pass Block := do
  s.report failure
  return .invalid fallback failure.problem

/-! ## References by id and by path -/

/-- Finishes a reference by path. -/
def settlePath (s : Scope) (shown : Appearance) (path : WrittenPath)
    (title : Option String) (source : String) : Pass Span :=
  match s.resolvePath path with
  | .resolved target => return shown.toSpan target title
  | .deferred => return shown.byPath path title source
  | .failed failure => s.invalidSpan (shown.byPath path title source) failure

/-- Finishes a reference by id from what became of the id. -/
def settleId (s : Scope) (shown : Appearance) (id source : String) :
    IdOutcome → Pass Span
  | .found (.external url title) => return shown.toSpan (.external url) title
  | .found (.target target) => return shown.toSpan target none
  | .found (.path path title) => s.settlePath shown path title source
  | .deferred last => return shown.byId last source
  | .missing last =>
    s.invalidSpan (shown.byId id source) (shown.unresolved last)
  | .failed failure => s.invalidSpan (shown.byId id source) failure

/-- Looks up a link id with what the pass remembers. -/
def lookUpId (s : Scope) (id : String) : Pass IdOutcome :=
  fun state =>
    let (outcome, cache) := s.lookUp id state.cache
    (outcome, { state with cache := cache })

/-- Pairs an anonymous reference with the next anonymous definition. -/
def nextAnonymous (s : Scope) : Pass IdOutcome :=
  fun state =>
    (match s.index.anonymous[state.anonymousNext]? with
     | some defined => .found defined.destination
     | none => .failed .anonymousExhausted,
     { state with anonymousNext := state.anonymousNext + 1 })

/-- Resolves a reference by id; an empty id is anonymous. -/
def resolveId (s : Scope) (shown : Appearance) (id source : String) :
    Pass Span := do
  let outcome ← if id = "" then s.nextAnonymous else s.lookUpId id
  s.settleId shown id source outcome

/-! ## Citations and footnotes -/

/-- The outcome of a citation reference. -/
def citation (s : Scope) (label : String) : Except Failure Span :=
  if label = "" then .error .emptyCitationReference
  else
    match s.index.citations.entry? label with
    | some (.unique _) => .ok (.citationLink label label)
    | some .duplicate => .error (.duplicateTarget label s.document)
    | none => .error (.unresolvedCitation label)

def resolveCitation (s : Scope) (label source : String) : Pass Span :=
  match s.citation label with
  | .ok span => return span
  | .error failure =>
    s.invalidSpan (.reference (.citation label) source) failure

/-- The footnote with an explicit number. -/
def numericFootnote (s : Scope) (number : Nat) :
    Except Failure NumberedFootnote :=
  let key := toString number
  match s.index.numericFootnotes.entry? key with
  | some (.unique _) => .ok (.numeric number)
  | some .duplicate => .error (.duplicateTarget key s.document)
  | none => .error (.unresolvedFootnote key)

/-- The auto-numbered footnote with a label. -/
def labelledFootnote (s : Scope) (label : String) :
    Except Failure NumberedFootnote :=
  if label = "" then .error .emptyFootnoteReference
  else
    match s.index.labelledFootnotes.entry? label with
    | some (.unique _) =>
      match s.index.footnotes.labelled label with
      | some footnote => .ok footnote
      | none => .error (.unresolvedFootnote label)
    | some .duplicate => .error (.duplicateTarget label s.document)
    | none => .error (.unresolvedFootnote label)

/-- The footnote that a reference means; positional references are paired
in the order they are met. -/
def footnoteFor (s : Scope) : FootnoteLabel → Pass (Except Failure NumberedFootnote)
  | .numeric number => return s.numericFootnote number
  | .labelled label => return s.labelledFootnote label
  | .autonumber => fun state =>
    let (found, cursor) := state.cursor.nextAutonumber s.index.footnotes
    (match found with
     | some footnote => .ok footnote
     | none => .error .autonumbersExhausted,
     { state with cursor := cursor })
  | .autosymbol => fun state =>
    let (found, cursor) := state.cursor.nextAutosymbol s.index.footnotes
    (match found with
     | some footnote => .ok footnote
     | none => .error .autosymbolsExhausted,
     { state with cursor := cursor })

def resolveFootnote (s : Scope) (label : FootnoteLabel) (source : String) :
    Pass Span := do
  match ← s.footnoteFor label with
  | .ok footnote => return .footnoteLink footnote.id footnote.label
  | .error failure =>
    s.invalidSpan (.reference (.footnote label) source) failure

/-! ## Spans -/

mutual

def resolveSpan (s : Scope) : Span → Pass Span
  | .emphasized content => return .emphasized (← s.resolveSpans content)
  | .strong content => return .strong (← s.resolveSpans content)
  | .link content target title =>
    return .link (← s.resolveSpans content) target title
  | .reference kind source => s.resolveReference kind source
  | .text text => return .text text
  | .literal text => return .literal text
  | .verbatim kind content => return .verbatim kind content
  | .image alt target title => return .image alt target title
  | .citationLink label reference => return .citationLink label reference
  | .footnoteLink id label => return .footnoteLink id label
  | .invalid fallback problem => return .invalid fallback problem

/-- Resolves a reference, or keeps it for the next phase. The text of a
link by id is resolved before the link itself. -/
def resolveReference (s : Scope) : ReferenceKind → (source : String) → Pass Span
  | .citation label, source => s.resolveCitation label source
  | .footnote label, source => s.resolveFootnote label source
  | .imageId alt id, source => s.resolveId (.image alt) id source
  | .imagePath alt path title, source =>
    s.settlePath (.image alt) path title source
  | .linkId content id, source => do
    let content ← s.resolveSpans content
    s.resolveId (.link content) id source
  | .linkPath content path title, source =>
    s.settlePath (.link content) path title source

def resolveSpans (s : Scope) : List Span → Pass (List Span)
  | [] => return []
  | span :: spans => do
    let span ← s.resolveSpan span
    return span :: (← s.resolveSpans spans)

end

/-! ## Blocks -/

/-- Makes the declaration of an anchor invalid if its id is repeated. -/
def checkAnchor (s : Scope) (id : Option String) (block : Block) :
    Pass Block :=
  match id with
  | none => return block
  | some id =>
    if s.index.anchors.isDuplicate id then
      s.invalidBlock block (.duplicateTarget id s.document)
    else return block

/-- A citation, given its resolved content. -/
def finishCitation (s : Scope) (label : String) (id : Option String)
    (content : List Block) : Pass Block :=
  if label = "" then s.invalidBlock (.citation label id content) .emptyCitation
  else
    let block := Block.citation label (some ("__cit-" ++ label)) content
    if s.index.citations.isDuplicate label then
      s.invalidBlock block (.duplicateTarget label s.document)
    else return block

/-- The key under which a footnote definition is repeated, if it is. -/
def repeatedFootnote? (s : Scope) : FootnoteLabel → Option String
  | .numeric number =>
    if s.index.numericFootnotes.isDuplicate (toString number) then
      some (toString number)
    else none
  | .labelled label =>
    if s.index.labelledFootnotes.isDuplicate label then some label else none
  | .autonumber => none
  | .autosymbol => none

def nextFootnote : Pass Nat :=
  fun state =>
    (state.footnoteNext, { state with footnoteNext := state.footnoteNext + 1 })

/-- A footnote definition, given its place among the definitions and its
resolved content. -/
def finishFootnote (s : Scope) (place : Nat) (label : FootnoteLabel)
    (content : List Block) : Pass Block :=
  match s.repeatedFootnote? label with
  | some key =>
    s.invalidBlock (.footnoteDefinition label content)
      (.duplicateTarget key s.document)
  | none =>
    match s.index.footnotes.definition place with
    | some assigned => return .footnote assigned.id assigned.label content
    | none => s.invalidBlock (.footnoteDefinition label content) .emptyFootnote

/-- An alias disappears unless it is repeated or leads in a circle. -/
def resolveAlias (s : Scope) (indirection : LinkAlias) :
    Pass (Option Block) := do
  let block := Block.linkAlias indirection
  if s.index.linkDefinitions.isDuplicate indirection.id then
    return some (← s.invalidBlock block
      (.duplicateDefinition indirection.id s.document))
  else
    match ← s.lookUpId indirection.id with
    | .failed failure =>
      if failure.isAliasLoop then return some (← s.invalidBlock block failure)
      else return none
    | _ => return none

/-- A link definition disappears unless it is repeated and internal. -/
def resolveDefinition (s : Scope) (definition : LinkDefinition) :
    Pass (Option Block) :=
  match definition.target with
  | .external _ => return none
  | .internal _ => do
    if definition.id ≠ ""
        ∧ s.index.linkDefinitions.isDuplicate definition.id then
      return some (← s.invalidBlock (.linkDefinition definition)
        (.duplicateDefinition definition.id s.document))
    else return none

/-- The block that stands for a resolved reference. -/
def blockOfSpan : Span → Block
  | .reference kind source => .reference kind source
  | .invalid (.reference kind source) problem =>
    .invalid (.reference kind source) problem
  | .invalid fallback problem => .invalid (.paragraph [fallback]) problem
  | span => .paragraph [span]

mutual

/-- Resolves a block; some blocks disappear. -/
def resolveBlock (s : Scope) : Block → Pass (Option Block)
  | .paragraph content => return some (.paragraph (← s.resolveSpans content))
  | .codeBlock code language => return some (.codeBlock code language)
  | .rule => return some .rule
  | .verbatim kind content => return some (.verbatim kind content)
  | .decoratedHeader header => return some (.decoratedHeader header)
  | .header header => do
    let content ← s.resolveSpans header.content
    return some (← s.checkAnchor header.id
      (.header { header with content := content }))
  | .title title => do
    let content ← s.resolveSpans title.content
    return some (← s.checkAnchor title.id
      (.title { title with content := content }))
  | .sectionOf header content => do
    let text ← s.resolveSpans header.content
    let content ← s.resolveBlocks content
    return some (← s.checkAnchor header.id
      (.sectionOf { header with content := text } content))
  | .quoted content => return some (.quoted (← s.resolveBlocks content))
  | .anchor id => return some (← s.checkAnchor (some id) (.anchor id))
  | .linkDefinition definition => s.resolveDefinition definition
  | .linkAlias indirection => s.resolveAlias indirection
  | .citation label id content => do
    let content ← s.resolveBlocks content
    return some (← s.finishCitation label id content)
  | .footnoteDefinition label content => do
    let place ← nextFootnote
    let content ← s.resolveBlocks content
    return some (← s.finishFootnote place label content)
  | .footnote id label content =>
    return some (.footnote id label (← s.resolveBlocks content))
  | .reference kind source =>
    return some (blockOfSpan (← s.resolveReference kind source))
  | .invalid fallback problem =>
    return some (.invalid (← s.resolveInside fallback) problem)

/-- Resolves inside an invalid block, which stays invalid. -/
def resolveInside (s : Scope) : Block → Pass Block
  | .citation label id content =>
    return .citation label id (← s.resolveBlocks content)
  | .footnoteDefinition label content =>
    return .footnoteDefinition label (← s.resolveBlocks content)
  | .header header =>
    return .header
      { header with content := ← s.resolveSpans header.content }
  | .sectionOf header content => do
    let text ← s.resolveSpans header.content
    return .sectionOf { header with content := text }
      (← s.resolveBlocks content)
  | .title title =>
    return .title { title with content := ← s.resolveSpans title.content }
  | block => return block

def resolveBlocks (s : Scope) : List Block → Pass (List Block)
  | [] => return []
  | block :: blocks => do
    let block ← s.resolveBlock block
    return block.toList ++ (← s.resolveBlocks blocks)

end

/-- One pass over the blocks of a document: the resolved blocks and what
was reported. -/
def run (s : Scope) (blocks : List Block) : List Block × List Diagnostic :=
  let (blocks, state) := (s.resolveBlocks blocks).run {}
  (blocks, state.diagnostics)

end Scope

end Crosslink
