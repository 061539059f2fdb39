import Crosslink.Json.Markup
import Crosslink.Json.Reading
import Crosslink.Proofs.Dictionary
import Crosslink.Proofs.Nodes
import Crosslink.Proofs.PathText

/-!
# Markup read back from JSON

What is written of a span or a block is an object with its kind under a tag,
and reading it as that kind gives back every field (`Span.span_read_toJson`,
`Block.block_read_toJson`, by recursion over the nodes): at any depth, in links
and headings, in quotes, sections and footnotes, in the fallbacks of invalid
nodes. What a node must promise for it is little (`Node.Readable`): its paths
are such as can be read, and its numbers fit.
-/

namespace Crosslink

namespace Json

/-! ## What a node must promise -/

end Json

/-- An explicit number is within its limit. -/
def FootnoteLabel.Fits : FootnoteLabel → Prop
  | .numeric number => number < numberLimit
  | _ => True

/-- The paths of an internal destination can be read. -/
def Target.Readable : Target → Prop
  | .internal target => target.absolute.Readable ∧ target.relative.Readable
  | .external _ => True

def DefinitionTarget.Readable : DefinitionTarget → Prop
  | .internal path => path.Readable
  | .external _ => True

/-- The path or the number that a reference is written with. -/
def ReferenceKind.Readable : ReferenceKind → Prop
  | .footnote label => label.Fits
  | .imagePath _ path _ => path.Readable
  | .linkPath _ path _ => path.Readable
  | .citation _ | .imageId _ _ | .linkId _ _ => True

/-- What a span promises of its own fields. -/
def Span.Readable : Span → Prop
  | .reference kind _ => kind.Readable
  | .link _ target _ => target.Readable
  | .image _ target _ => target.Readable
  | _ => True

/-- What a block promises of its own fields. -/
def Block.Readable : Block → Prop
  | .header h => h.level < Header.levelLimit
  | .sectionOf h _ => h.level < Header.levelLimit
  | .linkDefinition definition => definition.target.Readable
  | .footnoteDefinition label _ => label.Fits
  | .reference kind _ => kind.Readable
  | _ => True

/-- The paths of a node are such as can be read, and its numbers fit. -/
def Node.Readable : Node → Prop
  | span s => s.Readable
  | block b => b.Readable

namespace Json

/-! ## Reading an object -/

@[simp] theorem value_read (j : Json) : j.read.value = j := by
  cases j <;> rfl

namespace RecordReading

variable (key : String) (value : Json) (fields : List (String × Json)) (name : String)

@[simp] theorem part?_readFields_cons :
    part? ⟨readFields ((key, value) :: fields)⟩ name
      = if name = key then some value.read else part? ⟨readFields fields⟩ name := by
  rw [part?, readFields, Dictionary.lookup_cons]
  rfl

@[simp] theorem field?_readFields_cons :
    field? ⟨readFields ((key, value) :: fields)⟩ name
      = if name = key then some value else field? ⟨readFields fields⟩ name := by
  rw [field?, part?_readFields_cons]
  split
  · rw [Option.map_some, value_read]
  · rfl

@[simp] theorem text?_readFields_cons :
    text? ⟨readFields ((key, value) :: fields)⟩ name
      = if name = key then value.asText? else text? ⟨readFields fields⟩ name := by
  rw [text?, field?_readFields_cons]
  split <;> rfl

@[simp] theorem optionalText?_readFields_cons :
    optionalText? ⟨readFields ((key, value) :: fields)⟩ name
      = if name = key then value.asOptionalText?
        else optionalText? ⟨readFields fields⟩ name := by
  by_cases hname : name = key <;> simp [optionalText?, hname]

end RecordReading

@[simp] theorem asOptionalText?_optional (value : Option String) :
    (optional text value).asOptionalText? = some value := by
  cases value <;> rfl

/-- An object with its kind under a tag is read as its kind says. -/
theorem readNode_readFields {α : Type} {tag kind : String} {kinds : Kinds}
    {read : RecordReading → String → Option α} {fields : List (String × Json)} :
    readNode tag kinds read (.named (readFields ((tag, text kind) :: fields)))
      = read ⟨readFields ((tag, text kind) :: fields)⟩ kind := by
  simp [readNode, readFields, Parts.node?, kindName?]

variable (kind : String) (fields : List (String × Json))

theorem span_read_object :
    (object (("type", text kind) :: fields)).read.span
      = RecordReading.asSpan? ⟨readFields (("type", text kind) :: fields)⟩ kind :=
  readNode_readFields

theorem reference_read_object :
    (object (("reference", text kind) :: fields)).read.reference
      = RecordReading.asReference?
          ⟨readFields (("reference", text kind) :: fields)⟩ kind :=
  readNode_readFields

theorem header_read_object (fields : List (String × Json)) :
    (object fields).read.header = RecordReading.asHeader? ⟨readFields fields⟩ :=
  rfl

theorem block_read_tagged :
    (tagged kind fields).read.block
      = RecordReading.asBlock? ⟨readFields (("type", text kind) :: fields)⟩ kind :=
  readNode_readFields

theorem spans_read_cons (item : Json) (items : List Json) :
    (array (item :: items)).read.spans
      = item.read.span.bind fun span => (array items).read.spans.map (span :: ·) := by
  simp only [read, readItems, List.mapM_cons, Option.map_eq_bind]
  rfl

theorem blocks_read_cons (item : Json) (items : List Json) :
    (array (item :: items)).read.blocks
      = item.read.block.bind fun block => (array items).read.blocks.map (block :: ·) := by
  simp only [read, readItems, List.mapM_cons, Option.map_eq_bind]
  rfl

/-! ## Parts without nested markup -/

@[simp] theorem asNatural?_natural {bound n : Nat} :
    (natural n).asNatural? bound = if n < bound then some n else none :=
  rfl

theorem absolutePath?_toJson {p : AbsolutePath} (h : p.Readable) :
    p.toJson.absolutePath? = some p := by
  rw [AbsolutePath.toJson, absolutePath?,
    AbsolutePath.parse_toText (AbsolutePath.readable_iff.mp h)]
  rfl

theorem relativePath?_toJson {p : RelativePath} (h : p.Readable) :
    p.toJson.relativePath? = some p := by
  rw [RelativePath.toJson, relativePath?, asText?, Option.map_some, h.parse_toText]

theorem writtenPath?_toJson {p : WrittenPath} (h : p.Readable) :
    p.toJson.writtenPath? = some p := by
  rw [WrittenPath.toJson, writtenPath?, h.parse_toText]
  rfl

theorem problemKindAt?_toJson (place : Place) (kind : ProblemKind) :
    kind.toJson.problemKindAt? place = some kind := by
  cases kind <;> rfl

theorem decoration?_toJson (d : Decoration) : d.toJson.decoration? = some d := by
  have hsymbol : (text (String.ofList [d.symbol])).asChar? = some d.symbol := by
    simp [asChar?]
  show ((text (String.ofList [d.symbol])).asChar?).bind (fun symbol =>
    some (Decoration.mk symbol d.overline)) = _
  rw [hsymbol]
  rfl

theorem labelAt?_toJson {label : FootnoteLabel} (h : label.Fits) (place : Place) :
    label.toJson.labelAt? place = some label := by
  cases label with
  | autonumber => rfl
  | labelled label => rfl
  | autosymbol => rfl
  | numeric number =>
      have hread : (natural number).asNatural? FootnoteLabel.numberLimit = some number :=
        if_pos h
      show ((natural number).asNatural? FootnoteLabel.numberLimit).bind
        (fun number => some (FootnoteLabel.numeric number)) = _
      rw [hread]
      rfl

theorem target?_toJson {target : Target} (h : target.Readable) :
    target.toJson.target? = some target := by
  cases target with
  | external url => rfl
  | internal target =>
      show (target.absolute.toJson.absolutePath?).bind (fun absolute =>
        (optional text target.externalUrl).asOptionalText?.bind fun externalUrl =>
          (target.relative.toJson.relativePath?).bind fun relative =>
            some (Target.internal ⟨absolute, externalUrl, relative⟩)) = _
      rw [absolutePath?_toJson h.1, relativePath?_toJson h.2, asOptionalText?_optional]
      rfl

theorem definitionTarget?_toJson {target : DefinitionTarget} (h : target.Readable) :
    target.toJson.definitionTarget? = some target := by
  cases target with
  | external url => rfl
  | internal path =>
      show (path.toJson.writtenPath?).bind
        (fun path => some (DefinitionTarget.internal path)) = _
      rw [writtenPath?_toJson h]
      rfl

end Json

/-! ## Spans -/

open Json.RecordReading in
mutual

theorem Span.span_read_toJson : ∀ {span : Span},
    (∀ node ∈ span.nodes .everywhere, node.Readable) → span.toJson.read.span = some span
  | .text text, h => by
      rw [Span.toJson, Json.span_read_object]
      simp [asSpan?, Json.asText?]
  | .literal text, h => by
      rw [Span.toJson, Json.span_read_object]
      simp [asSpan?, Json.asText?]
  | .emphasized content, h => by
      have hcontent := Spans.spans_read_toJson fun node hnode =>
        h node (List.mem_append_left _ hnode)
      rw [Span.toJson, Json.span_read_object]
      simp [asSpan?, spans?, hcontent]
  | .strong content, h => by
      have hcontent := Spans.spans_read_toJson fun node hnode =>
        h node (List.mem_append_left _ hnode)
      rw [Span.toJson, Json.span_read_object]
      simp [asSpan?, spans?, hcontent]
  | .verbatim kind content, h => by
      rw [Span.toJson, Json.span_read_object]
      simp [asSpan?, Json.asText?]
  | .reference kind source, h => by
      obtain ⟨hinside, hkind⟩ := List.forall_mem_append.mp h
      have hread := ReferenceKind.reference_read_toJson
        (hkind _ (List.mem_singleton_self _)) hinside
      rw [Span.toJson, Json.span_read_object]
      simp [asSpan?, reference?, hread, Json.asText?]
  | .link content target title, h => by
      obtain ⟨hinside, htarget⟩ := List.forall_mem_append.mp h
      have hcontent := Spans.spans_read_toJson hinside
      have hread := Json.target?_toJson (htarget _ (List.mem_singleton_self _))
      rw [Span.toJson, Json.span_read_object]
      simp [asSpan?, spans?, target?, hcontent, hread]
  | .image alt target title, h => by
      have hread := Json.target?_toJson (h _ (List.mem_singleton_self _))
      rw [Span.toJson, Json.span_read_object]
      simp [asSpan?, target?, hread, Json.asText?]
  | .citationLink label reference, h => by
      rw [Span.toJson, Json.span_read_object]
      simp [asSpan?, Json.asText?]
  | .footnoteLink id label, h => by
      rw [Span.toJson, Json.span_read_object]
      simp [asSpan?, Json.asText?]
  | .invalid fallback problem, h => by
      obtain ⟨hinside, -⟩ := List.forall_mem_append.mp h
      have hfallback := Span.span_read_toJson hinside
      rw [Span.toJson, Json.span_read_object]
      simp [asSpan?, problem?, hfallback, Json.problemKindAt?_toJson, Json.asText?]

theorem ReferenceKind.reference_read_toJson : ∀ {kind : ReferenceKind},
    kind.Readable → (∀ node ∈ kind.nodes .everywhere, node.Readable) →
      kind.toJson.read.reference = some kind
  | .citation label, _, _ => by
      rw [ReferenceKind.toJson, Json.reference_read_object]
      simp [asReference?, Json.asText?]
  | .footnote label, hlabel, _ => by
      have hread := Json.labelAt?_toJson hlabel .inner
      rw [ReferenceKind.toJson, Json.reference_read_object]
      simp [asReference?, label?, hread]
  | .imageId alt id, _, _ => by
      rw [ReferenceKind.toJson, Json.reference_read_object]
      simp [asReference?, Json.asText?]
  | .imagePath alt path title, hpath, _ => by
      have hread := Json.writtenPath?_toJson hpath
      rw [ReferenceKind.toJson, Json.reference_read_object]
      simp [asReference?, path?, hread, Json.asText?]
  | .linkId content id, _, h => by
      have hcontent := Spans.spans_read_toJson h
      rw [ReferenceKind.toJson, Json.reference_read_object]
      simp [asReference?, spans?, hcontent, Json.asText?]
  | .linkPath content path title, hpath, h => by
      have hcontent := Spans.spans_read_toJson h
      have hread := Json.writtenPath?_toJson hpath
      rw [ReferenceKind.toJson, Json.reference_read_object]
      simp [asReference?, spans?, path?, hcontent, hread]

theorem Spans.spans_read_toJson : ∀ {spans : List Span},
    (∀ node ∈ Spans.nodes .everywhere spans, node.Readable) →
      (Json.array (Spans.toJson spans)).read.spans = some spans
  | [], _ => rfl
  | span :: spans, h => by
      obtain ⟨hspan, hspans⟩ := List.forall_mem_append.mp h
      rw [Spans.toJson, Json.spans_read_cons, Span.span_read_toJson hspan,
        Spans.spans_read_toJson hspans]
      rfl

end

/-! ## Blocks -/

open Json.RecordReading in
mutual

theorem Block.block_read_toJson : ∀ {block : Block},
    (∀ node ∈ block.nodes .everywhere, node.Readable) →
      block.toJson.read.block = some block
  | .paragraph content, h => by
      have hcontent := Spans.spans_read_toJson (List.forall_mem_append.mp h).1
      rw [Block.toJson, Json.block_read_tagged]
      simp [asBlock?, spans?, hcontent]
  | .codeBlock code language, _ => by
      rw [Block.toJson, Json.block_read_tagged]
      simp [asBlock?, Json.asText?]
  | .rule, _ => by
      rw [Block.toJson, Json.block_read_tagged]
      simp [asBlock?]
  | .verbatim kind content, _ => by
      rw [Block.toJson, Json.block_read_tagged]
      simp [asBlock?, Json.asText?]
  | .header header, h => by
      obtain ⟨hinside, hlevel⟩ := List.forall_mem_append.mp h
      have hcontent := Spans.spans_read_toJson hinside
      have hlimit : header.level < Header.levelLimit :=
        hlevel _ (List.mem_singleton_self _)
      rw [Block.toJson, Json.block_read_tagged]
      simp [asBlock?, asHeader?, Header.jsonFields, spans?, hcontent, hlimit]
  | .decoratedHeader header, h => by
      have hcontent := Spans.spans_read_toJson (List.forall_mem_append.mp h).1
      rw [Block.toJson, Json.block_read_tagged]
      simp [asBlock?, spans?, hcontent, Json.decoration?_toJson]
  | .title title, h => by
      have hcontent := Spans.spans_read_toJson (List.forall_mem_append.mp h).1
      rw [Block.toJson, Json.block_read_tagged]
      simp [asBlock?, Title.jsonFields, spans?, hcontent]
  | .sectionOf header content, h => by
      obtain ⟨htext, hrest⟩ := List.forall_mem_append.mp h
      obtain ⟨hinside, hlevel⟩ := List.forall_mem_append.mp hrest
      have hheader := Spans.spans_read_toJson htext
      have hcontent := Blocks.blocks_read_toJson hinside
      have hlimit : header.level < Header.levelLimit :=
        hlevel _ (List.mem_singleton_self _)
      rw [Block.toJson, Json.block_read_tagged]
      simp [asBlock?, asHeader?, Header.jsonFields, spans?, blocks?, hheader, hcontent,
        hlimit, Json.header_read_object]
  | .quoted content, h => by
      have hcontent := Blocks.blocks_read_toJson (List.forall_mem_append.mp h).1
      rw [Block.toJson, Json.block_read_tagged]
      simp [asBlock?, blocks?, hcontent]
  | .anchor id, _ => by
      rw [Block.toJson, Json.block_read_tagged]
      simp [asBlock?, Json.asText?]
  | .linkDefinition definition, h => by
      have hread := Json.definitionTarget?_toJson (h _ (List.mem_singleton_self _))
      rw [Block.toJson, Json.block_read_tagged]
      simp [asBlock?, LinkDefinition.jsonFields, hread, Json.asText?]
  | .linkAlias indirection, _ => by
      rw [Block.toJson, Json.block_read_tagged]
      simp [asBlock?, Json.asText?]
  | .citation label id content, h => by
      have hcontent := Blocks.blocks_read_toJson (List.forall_mem_append.mp h).1
      rw [Block.toJson, Json.block_read_tagged]
      simp [asBlock?, blocks?, hcontent, Json.asText?]
  | .footnoteDefinition label content, h => by
      obtain ⟨hinside, hlabel⟩ := List.forall_mem_append.mp h
      have hcontent := Blocks.blocks_read_toJson hinside
      have hread := Json.labelAt?_toJson (hlabel _ (List.mem_singleton_self _)) .inner
      rw [Block.toJson, Json.block_read_tagged]
      simp [asBlock?, blocks?, label?, hcontent, hread]
  | .footnote id label content, h => by
      have hcontent := Blocks.blocks_read_toJson (List.forall_mem_append.mp h).1
      rw [Block.toJson, Json.block_read_tagged]
      simp [asBlock?, blocks?, hcontent, Json.asText?]
  | .reference kind source, h => by
      obtain ⟨hinside, hkind⟩ := List.forall_mem_append.mp h
      have hread := ReferenceKind.reference_read_toJson
        (hkind _ (List.mem_singleton_self _)) hinside
      rw [Block.toJson, Json.block_read_tagged]
      simp [asBlock?, reference?, hread, Json.asText?]
  | .invalid fallback problem, h => by
      have hfallback := Block.block_read_toJson (List.forall_mem_append.mp h).1
      rw [Block.toJson, Json.block_read_tagged]
      simp [asBlock?, problem?, hfallback, Json.problemKindAt?_toJson, Json.asText?]

theorem Blocks.blocks_read_toJson : ∀ {blocks : List Block},
    (∀ node ∈ Blocks.nodes .everywhere blocks, node.Readable) →
      (Json.array (Blocks.toJson blocks)).read.blocks = some blocks
  | [], _ => rfl
  | block :: blocks, h => by
      obtain ⟨hblock, hblocks⟩ := List.forall_mem_append.mp h
      rw [Blocks.toJson, Json.blocks_read_cons, Block.block_read_toJson hblock,
        Blocks.blocks_read_toJson hblocks]
      rfl

end

/-! ## Values that stand alone -/

theorem Span.namesKind_toJson (span : Span) : span.toJson.namesKind = true := by
  cases span <;> rfl

theorem Block.namesKind_toJson (block : Block) : block.toJson.namesKind = true := by
  cases block <;> rfl

namespace Json

/-- Every span and every block, however deep its nodes nest and whether they
are resolved, still to be resolved or invalid, is read back from its JSON form
as it was written, if its paths are such as can be read and its numbers fit. -/
theorem markup_reads_back :
    (∀ span : Span, (∀ node ∈ span.nodes .everywhere, node.Readable) →
        span? span.toJson = some span)
      ∧ ∀ block : Block, (∀ node ∈ block.nodes .everywhere, node.Readable) →
          block? block.toJson = some block := by
  refine ⟨fun span h => ?_, fun block h => ?_⟩
  · rw [span?, if_pos span.namesKind_toJson, Span.span_read_toJson h]
  · rw [block?, if_pos block.namesKind_toJson, Block.block_read_toJson h]

/-- A link to a pier, whose text still refers to a footnote, beside an image
that was not found. -/
def pierLink : Span :=
  .link
    [.strong [.reference (.footnote (.numeric 7)) "[^7]"],
     .invalid (.reference (.imagePath "crane" (.relative ⟨2, ["crane.png"], none⟩) none)
       "![crane](../../crane.png)") ⟨.unresolved, "unresolved"⟩]
    (.internal
      ⟨⟨["port", "pier.md"], some "a#b/.."⟩, some "http://pier", ⟨0, [], some "x"⟩⟩)
    (some "")

/-- The link in a repeated section of a footnote. -/
def pierNote : Block :=
  .footnoteDefinition (.labelled "type")
    [.invalid
      (.sectionOf ⟨[pierLink], none, 2⟩
        [.linkDefinition ⟨"", .internal (.absolute .root), none⟩])
      ⟨.duplicateIdentifier, "kind"⟩]

theorem markup_reads_back_pier :
    (∀ node ∈ pierNote.nodes .everywhere, node.Readable)
      ∧ span? pierLink.toJson = some pierLink
      ∧ block? pierNote.toJson = some pierNote := by
  have hnumber : (FootnoteLabel.numeric 7).Fits := show 7 < 4294967296 by decide
  have himage : (WrittenPath.relative ⟨2, ["crane.png"], none⟩).Readable :=
    ⟨"../../crane.png", rfl⟩
  have htarget : (Target.internal ⟨⟨["port", "pier.md"], some "a#b/.."⟩,
      some "http://pier", ⟨0, [], some "x"⟩⟩).Readable :=
    ⟨⟨"/port/pier.md#a#b/..", rfl⟩, ⟨"#x", rfl⟩⟩
  have hlink : ∀ node ∈ pierLink.nodes .everywhere, node.Readable := by
    simp [pierLink, Span.nodes, Spans.nodes, ReferenceKind.nodes, Node.Readable,
      Span.Readable, ReferenceKind.Readable, hnumber, himage, htarget]
  have hroot : (DefinitionTarget.internal (.absolute .root)).Readable := ⟨"/", rfl⟩
  have hnote : ∀ node ∈ pierNote.nodes .everywhere, node.Readable := by
    simp only [pierNote, Block.nodes, Blocks.nodes, Spans.nodes, List.append_nil,
      List.append_assoc, List.forall_mem_append, List.forall_mem_singleton]
    exact ⟨hlink, hroot, show 2 < 18446744073709551616 by decide, trivial, trivial⟩
  exact ⟨hnote, markup_reads_back.1 pierLink hlink, markup_reads_back.2 pierNote hnote⟩

end Json

end Crosslink
