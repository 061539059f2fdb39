import Crosslink.Resolution.Pass
import Crosslink.Proofs.AliasChain

/-!
# What a pass may make of a node

`Blocks.Yields s before after problems` says that a pass in the scope `s`
may turn the blocks `before` into `after` and report `problems` on the
way, in this order. One rule per kind of node says everything the pass can
do to it, guards included, and the rules follow the nodes, so that
statements about a pass are proved by recursion on a derivation and never
look at the pass itself. The rules leave open what depends on the
references met before: which anonymous definition or positional footnote a
reference is paired with, and what a look-up answers when a chain of
aliases has no end within reach. That every pass follows the rules is
shown in `Crosslink.Proofs.Pass`.
-/

namespace Crosslink

namespace Scope

/-! ## References -/

/-- The answers to the id of a reference: an empty one is paired with some
anonymous definition or with none. -/
def AnswersReference (s : Scope) (id : String) (outcome : IdOutcome) : Prop :=
  if id = "" then
    (∃ defined ∈ s.index.anonymous, outcome = .found defined.destination)
      ∨ outcome = .failed .anonymousExhausted
  else s.Answers id outcome

/-- The footnotes a label may mean; positional ones are paired with some
definition of their kind or with none. -/
inductive Means (s : Scope) : FootnoteLabel → Except Failure NumberedFootnote → Prop
  | numeric {number : Nat} : Means s (.numeric number) (s.numericFootnote number)
  | labelled {label : String} : Means s (.labelled label) (s.labelledFootnote label)
  | autonumber {footnote : NumberedFootnote}
      (h : footnote ∈ s.index.footnotes.assignedTo .autonumber) :
      Means s .autonumber (.ok footnote)
  | autonumbersExhausted : Means s .autonumber (.error .autonumbersExhausted)
  | autosymbol {footnote : NumberedFootnote}
      (h : footnote ∈ s.index.footnotes.assignedTo .autosymbol) :
      Means s .autosymbol (.ok footnote)
  | autosymbolsExhausted : Means s .autosymbol (.error .autosymbolsExhausted)

/-- What becomes of a reference by path. -/
inductive SettlesPath (s : Scope) (shown : Appearance) (path : WrittenPath)
    (title : Option String) (source : String) : Span → List Problem → Prop
  | resolved {target : Target} (h : s.resolvePath path = .resolved target) :
      SettlesPath s shown path title source (shown.toSpan target title) []
  | deferred (h : s.resolvePath path = .deferred) :
      SettlesPath s shown path title source (shown.byPath path title source) []
  | failed {failure : Failure} (h : s.resolvePath path = .failed failure) :
      SettlesPath s shown path title source
        (.invalid (shown.byPath path title source) failure.problem)
        [failure.problem]

/-- What becomes of a reference by id, given the answer to the id. -/
inductive SettlesId (s : Scope) (shown : Appearance) (id source : String) :
    IdOutcome → Span → List Problem → Prop
  | external {url : String} {title : Option String} :
      SettlesId s shown id source (.found (.external url title))
        (shown.toSpan (.external url) title) []
  | target {target : Target} :
      SettlesId s shown id source (.found (.target target))
        (shown.toSpan target none) []
  | path {path : WrittenPath} {title : Option String} {out : Span}
      {problems : List Problem}
      (h : s.SettlesPath shown path title source out problems) :
      SettlesId s shown id source (.found (.path path title)) out problems
  | deferred {last : String} :
      SettlesId s shown id source (.deferred last) (shown.byId last source) []
  | missing {last : String} :
      SettlesId s shown id source (.missing last)
        (.invalid (shown.byId id source) (shown.unresolved last).problem)
        [(shown.unresolved last).problem]
  | failed {failure : Failure} :
      SettlesId s shown id source (.failed failure)
        (.invalid (shown.byId id source) failure.problem) [failure.problem]

/-! ## Declarations -/

/-- The declaration of an anchor stays unless its id is repeated. -/
inductive ChecksAnchor (s : Scope) (id : Option String) (block : Block) :
    Block → List Problem → Prop
  | kept (h : ∀ i, id = some i → s.index.anchors.isDuplicate i = false) :
      ChecksAnchor s id block block []
  | repeated {i : String} (hid : id = some i)
      (h : s.index.anchors.isDuplicate i = true) :
      ChecksAnchor s id block
        (.invalid block (Failure.duplicateTarget i s.document).problem)
        [(Failure.duplicateTarget i s.document).problem]

/-- A citation gets its id unless its label is empty or repeated. -/
inductive FinishesCitation (s : Scope) (label : String) (id : Option String)
    (content : List Block) : Block → List Problem → Prop
  | nameless (h : label = "") :
      FinishesCitation s label id content
        (.invalid (.citation label id content) Failure.emptyCitation.problem)
        [Failure.emptyCitation.problem]
  | kept (hname : label ≠ "") (h : s.index.citations.isDuplicate label = false) :
      FinishesCitation s label id content
        (.citation label (some ("__cit-" ++ label)) content) []
  | repeated (hname : label ≠ "")
      (h : s.index.citations.isDuplicate label = true) :
      FinishesCitation s label id content
        (.invalid (.citation label (some ("__cit-" ++ label)) content)
          (Failure.duplicateTarget label s.document).problem)
        [(Failure.duplicateTarget label s.document).problem]

/-- A footnote definition at some place becomes a footnote unless it is
repeated or has an empty label. -/
inductive FinishesFootnote (s : Scope) (place : Nat) (label : FootnoteLabel)
    (content : List Block) : Block → List Problem → Prop
  | repeated {key : String} (h : s.repeatedFootnote? label = some key) :
      FinishesFootnote s place label content
        (.invalid (.footnoteDefinition label content)
          (Failure.duplicateTarget key s.document).problem)
        [(Failure.duplicateTarget key s.document).problem]
  | numbered {assigned : NumberedFootnote} (h : s.repeatedFootnote? label = none)
      (hat : s.index.footnotes.definition place = some assigned) :
      FinishesFootnote s place label content
        (.footnote assigned.id assigned.label content) []
  | nameless (h : s.repeatedFootnote? label = none)
      (hat : s.index.footnotes.definition place = none) :
      FinishesFootnote s place label content
        (.invalid (.footnoteDefinition label content)
          Failure.emptyFootnote.problem)
        [Failure.emptyFootnote.problem]

/-- An alias disappears unless it is repeated or a failure itself. -/
inductive DropsAlias (s : Scope) (indirection : LinkAlias) :
    Option Block → List Problem → Prop
  | repeated (h : s.index.linkDefinitions.isDuplicate indirection.id = true) :
      DropsAlias s indirection
        (some (.invalid (.linkAlias indirection)
          (Failure.duplicateDefinition indirection.id s.document).problem))
        [(Failure.duplicateDefinition indirection.id s.document).problem]
  | looping {failure : Failure}
      (h : s.index.linkDefinitions.isDuplicate indirection.id = false)
      (hanswer : s.Answers indirection.id (.failed failure))
      (hloop : failure.isAliasLoop = true) :
      DropsAlias s indirection
        (some (.invalid (.linkAlias indirection) failure.problem))
        [failure.problem]
  | dropped {outcome : IdOutcome}
      (h : s.index.linkDefinitions.isDuplicate indirection.id = false)
      (hanswer : s.Answers indirection.id outcome)
      (hends : outcome.isAliasLoop = false) :
      DropsAlias s indirection none []

/-- A link definition disappears unless it is repeated and internal. -/
inductive DropsDefinition (s : Scope) (definition : LinkDefinition) :
    Option Block → List Problem → Prop
  | external {url : String} (h : definition.target = .external url) :
      DropsDefinition s definition none []
  | repeated {path : WrittenPath} (htarget : definition.target = .internal path)
      (hname : definition.id ≠ "")
      (h : s.index.linkDefinitions.isDuplicate definition.id = true) :
      DropsDefinition s definition
        (some (.invalid (.linkDefinition definition)
          (Failure.duplicateDefinition definition.id s.document).problem))
        [(Failure.duplicateDefinition definition.id s.document).problem]
  | internal {path : WrittenPath} (htarget : definition.target = .internal path)
      (h : definition.id = ""
        ∨ s.index.linkDefinitions.isDuplicate definition.id = false) :
      DropsDefinition s definition none []

end Scope

/-! ## Spans -/

mutual

/-- What a pass may make of a span. -/
inductive Span.Yields (s : Scope) : Span → Span → List Problem → Prop
  | text {text : String} : Span.Yields s (.text text) (.text text) []
  | literal {text : String} : Span.Yields s (.literal text) (.literal text) []
  | emphasized {content content' : List Span} {problems : List Problem}
      (h : Spans.Yields s content content' problems) :
      Span.Yields s (.emphasized content) (.emphasized content') problems
  | strong {content content' : List Span} {problems : List Problem}
      (h : Spans.Yields s content content' problems) :
      Span.Yields s (.strong content) (.strong content') problems
  | verbatim {kind content : String} :
      Span.Yields s (.verbatim kind content) (.verbatim kind content) []
  | reference {kind : ReferenceKind} {source : String} {out : Span}
      {problems : List Problem}
      (h : ReferenceKind.Yields s kind source out problems) :
      Span.Yields s (.reference kind source) out problems
  | link {content content' : List Span} {target : Target}
      {title : Option String} {problems : List Problem}
      (h : Spans.Yields s content content' problems) :
      Span.Yields s (.link content target title) (.link content' target title)
        problems
  | image {alt : String} {target : Target} {title : Option String} :
      Span.Yields s (.image alt target title) (.image alt target title) []
  | citationLink {label reference : String} :
      Span.Yields s (.citationLink label reference)
        (.citationLink label reference) []
  | footnoteLink {id label : String} :
      Span.Yields s (.footnoteLink id label) (.footnoteLink id label) []
  | invalid {fallback : Span} {problem : Problem} :
      Span.Yields s (.invalid fallback problem) (.invalid fallback problem) []

/-- What a pass may make of a reference. Only the text of a link by id is
resolved before the reference itself. -/
inductive ReferenceKind.Yields (s : Scope) :
    ReferenceKind → String → Span → List Problem → Prop
  | citation {label source : String} {out : Span}
      (h : s.citation label = .ok out) :
      ReferenceKind.Yields s (.citation label) source out []
  | citationFailed {label source : String} {failure : Failure}
      (h : s.citation label = .error failure) :
      ReferenceKind.Yields s (.citation label) source
        (.invalid (.reference (.citation label) source) failure.problem)
        [failure.problem]
  | footnote {label : FootnoteLabel} {source : String}
      {footnote : NumberedFootnote} (h : s.Means label (.ok footnote)) :
      ReferenceKind.Yields s (.footnote label) source
        (.footnoteLink footnote.id footnote.label) []
  | footnoteFailed {label : FootnoteLabel} {source : String} {failure : Failure}
      (h : s.Means label (.error failure)) :
      ReferenceKind.Yields s (.footnote label) source
        (.invalid (.reference (.footnote label) source) failure.problem)
        [failure.problem]
  | imageId {alt id source : String} {outcome : IdOutcome} {out : Span}
      {problems : List Problem} (hanswer : s.AnswersReference id outcome)
      (h : s.SettlesId (.image alt) id source outcome out problems) :
      ReferenceKind.Yields s (.imageId alt id) source out problems
  | imagePath {alt : String} {path : WrittenPath} {title : Option String}
      {source : String} {out : Span} {problems : List Problem}
      (h : s.SettlesPath (.image alt) path title source out problems) :
      ReferenceKind.Yields s (.imagePath alt path title) source out problems
  | linkId {content content' : List Span} {id source : String}
      {outcome : IdOutcome} {out : Span} {inner problems : List Problem}
      (hcontent : Spans.Yields s content content' inner)
      (hanswer : s.AnswersReference id outcome)
      (h : s.SettlesId (.link content') id source outcome out problems) :
      ReferenceKind.Yields s (.linkId content id) source out (inner ++ problems)
  | linkPath {content : List Span} {path : WrittenPath} {title : Option String}
      {source : String} {out : Span} {problems : List Problem}
      (h : s.SettlesPath (.link content) path title source out problems) :
      ReferenceKind.Yields s (.linkPath content path title) source out problems

inductive Spans.Yields (s : Scope) :
    List Span → List Span → List Problem → Prop
  | nil : Spans.Yields s [] [] []
  | cons {span out : Span} {spans outs : List Span}
      {first rest : List Problem} (h : Span.Yields s span out first)
      (hrest : Spans.Yields s spans outs rest) :
      Spans.Yields s (span :: spans) (out :: outs) (first ++ rest)

end

/-! ## Blocks -/

/-- A pass leaves the block as it is when it is the fallback of an invalid
one. -/
def Block.isSealed : Block → Bool
  | .citation _ _ _ => false
  | .footnoteDefinition _ _ => false
  | .header _ => false
  | .sectionOf _ _ => false
  | .title _ => false
  | _ => true

mutual

/-- What a pass may make of a block; some blocks disappear. -/
inductive Block.Yields (s : Scope) : Block → Option Block → List Problem → Prop
  | paragraph {content content' : List Span} {problems : List Problem}
      (h : Spans.Yields s content content' problems) :
      Block.Yields s (.paragraph content) (some (.paragraph content')) problems
  | codeBlock {code : String} {language : Option String} :
      Block.Yields s (.codeBlock code language) (some (.codeBlock code language)) []
  | rule : Block.Yields s .rule (some .rule) []
  | verbatim {kind content : String} :
      Block.Yields s (.verbatim kind content) (some (.verbatim kind content)) []
  | decoratedHeader {header : DecoratedHeader} :
      Block.Yields s (.decoratedHeader header) (some (.decoratedHeader header)) []
  | header {header : Header} {text : List Span} {out : Block}
      {inner problems : List Problem}
      (htext : Spans.Yields s header.content text inner)
      (h : s.ChecksAnchor header.id (.header { header with content := text })
        out problems) :
      Block.Yields s (.header header) (some out) (inner ++ problems)
  | title {title : Title} {text : List Span} {out : Block}
      {inner problems : List Problem}
      (htext : Spans.Yields s title.content text inner)
      (h : s.ChecksAnchor title.id (.title { title with content := text })
        out problems) :
      Block.Yields s (.title title) (some out) (inner ++ problems)
  | sectionOf {header : Header} {text : List Span} {content content' : List Block}
      {out : Block} {first inner problems : List Problem}
      (htext : Spans.Yields s header.content text first)
      (hcontent : Blocks.Yields s content content' inner)
      (h : s.ChecksAnchor header.id
        (.sectionOf { header with content := text } content') out problems) :
      Block.Yields s (.sectionOf header content) (some out)
        (first ++ (inner ++ problems))
  | quoted {content content' : List Block} {problems : List Problem}
      (h : Blocks.Yields s content content' problems) :
      Block.Yields s (.quoted content) (some (.quoted content')) problems
  | anchor {id : String} {out : Block} {problems : List Problem}
      (h : s.ChecksAnchor (some id) (.anchor id) out problems) :
      Block.Yields s (.anchor id) (some out) problems
  | linkDefinition {definition : LinkDefinition} {out : Option Block}
      {problems : List Problem}
      (h : s.DropsDefinition definition out problems) :
      Block.Yields s (.linkDefinition definition) out problems
  | linkAlias {indirection : LinkAlias} {out : Option Block}
      {problems : List Problem} (h : s.DropsAlias indirection out problems) :
      Block.Yields s (.linkAlias indirection) out problems
  | citation {label : String} {id : Option String} {content content' : List Block}
      {out : Block} {inner problems : List Problem}
      (hcontent : Blocks.Yields s content content' inner)
      (h : s.FinishesCitation label id content' out problems) :
      Block.Yields s (.citation label id content) (some out) (inner ++ problems)
  | footnoteDefinition {label : FootnoteLabel} {content content' : List Block}
      {place : Nat} {out : Block} {inner problems : List Problem}
      (hcontent : Blocks.Yields s content content' inner)
      (h : s.FinishesFootnote place label content' out problems) :
      Block.Yields s (.footnoteDefinition label content) (some out)
        (inner ++ problems)
  | footnote {id label : String} {content content' : List Block}
      {problems : List Problem}
      (h : Blocks.Yields s content content' problems) :
      Block.Yields s (.footnote id label content)
        (some (.footnote id label content')) problems
  | reference {kind : ReferenceKind} {source : String} {span : Span}
      {problems : List Problem}
      (h : ReferenceKind.Yields s kind source span problems) :
      Block.Yields s (.reference kind source) (some (Scope.blockOfSpan span))
        problems
  | invalid {fallback fallback' : Block} {problem : Problem}
      {problems : List Problem}
      (h : Block.YieldsInside s fallback fallback' problems) :
      Block.Yields s (.invalid fallback problem)
        (some (.invalid fallback' problem)) problems

/-- What a pass may make of the fallback of an invalid block. -/
inductive Block.YieldsInside (s : Scope) : Block → Block → List Problem → Prop
  | citation {label : String} {id : Option String} {content content' : List Block}
      {problems : List Problem}
      (h : Blocks.Yields s content content' problems) :
      Block.YieldsInside s (.citation label id content)
        (.citation label id content') problems
  | footnoteDefinition {label : FootnoteLabel} {content content' : List Block}
      {problems : List Problem}
      (h : Blocks.Yields s content content' problems) :
      Block.YieldsInside s (.footnoteDefinition label content)
        (.footnoteDefinition label content') problems
  | header {header : Header} {text : List Span} {problems : List Problem}
      (h : Spans.Yields s header.content text problems) :
      Block.YieldsInside s (.header header)
        (.header { header with content := text }) problems
  | sectionOf {header : Header} {text : List Span} {content content' : List Block}
      {first inner : List Problem}
      (htext : Spans.Yields s header.content text first)
      (h : Blocks.Yields s content content' inner) :
      Block.YieldsInside s (.sectionOf header content)
        (.sectionOf { header with content := text } content') (first ++ inner)
  | title {title : Title} {text : List Span} {problems : List Problem}
      (h : Spans.Yields s title.content text problems) :
      Block.YieldsInside s (.title title)
        (.title { title with content := text }) problems
  | sealed {block : Block} (h : block.isSealed = true) :
      Block.YieldsInside s block block []

inductive Blocks.Yields (s : Scope) :
    List Block → List Block → List Problem → Prop
  | nil : Blocks.Yields s [] [] []
  | cons {block : Block} {out : Option Block} {blocks outs : List Block}
      {first rest : List Problem} (h : Block.Yields s block out first)
      (hrest : Blocks.Yields s blocks outs rest) :
      Blocks.Yields s (block :: blocks) (out.toList ++ outs) (first ++ rest)

end

end Crosslink
