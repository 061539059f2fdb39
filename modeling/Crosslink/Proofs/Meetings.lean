import Crosslink.Proofs.Becomes
import Crosslink.Proofs.Schemes

/-!
# What a pass meets

`Blocks.Met before after meetings` says that `after` is `before` with the
references that a pass comes to replaced and its footnote definitions finished,
and that `meetings` lists these references and definitions in the order in which
the pass comes to them: a definition before what is inside it, a reference after
the references in its text. What each of them becomes is left open, so the
relation says where things stand and when they are met and nothing else.

The index lists footnote definitions too, and for the most part the same ones
(`Blocks.labelsMet`): but inside an invalid quote or footnote it sees definitions
that a pass never comes to.
-/

namespace Crosslink

/-! ## Meetings -/

/-- A reference whose text is resolved, and what it becomes. -/
structure Turn where
  kind : ReferenceKind
  source : String
  out : Span

/-- A footnote definition, its resolved content, and what it becomes. -/
structure Noted where
  label : FootnoteLabel
  content : List Block
  out : Block

inductive Meeting where
  | reference (turn : Turn)
  | definition (noted : Noted)

namespace Meeting

/-- The reference met, if it belongs to the scheme. -/
def turn? (scheme : Scheme) : Meeting → Option Turn
  | reference turn => if turn.kind.scheme? = some scheme then some turn else none
  | definition _ => none

def noted? : Meeting → Option Noted
  | reference _ => none
  | definition noted => some noted

end Meeting

/-- The block stays as it is or inside an invalid one. -/
def Block.StaysIn (block out : Block) : Prop :=
  out = block ∨ ∃ problem, out = .invalid block problem

namespace Scope

variable {s : Scope}

theorem ChecksAnchor.staysIn {id : Option String} {block out : Block}
    {problems : List Problem} (h : s.ChecksAnchor id block out problems) :
    block.StaysIn out := by
  cases h with
  | kept => exact .inl rfl
  | repeated => exact .inr ⟨_, rfl⟩

theorem FinishesCitation.staysIn {label : String} {id : Option String}
    {content : List Block} {out : Block} {problems : List Problem}
    (h : s.FinishesCitation label id content out problems) :
    ∃ id', (Block.citation label id' content).StaysIn out := by
  cases h with
  | nameless => exact ⟨id, .inr ⟨_, rfl⟩⟩
  | kept => exact ⟨_, .inl rfl⟩
  | repeated => exact ⟨_, .inr ⟨_, rfl⟩⟩

theorem DropsAlias.leavesInvalid {indirection : LinkAlias} {out : Option Block}
    {problems : List Problem} (h : s.DropsAlias indirection out problems) :
    LeavesInvalid (.linkAlias indirection) out := by
  cases h with
  | repeated => exact .inr ⟨_, rfl⟩
  | looping => exact .inr ⟨_, rfl⟩
  | dropped => exact .inl rfl

theorem DropsDefinition.leavesInvalid {definition : LinkDefinition}
    {out : Option Block} {problems : List Problem}
    (h : s.DropsDefinition definition out problems) :
    LeavesInvalid (.linkDefinition definition) out
      ∧ (definition.id = "" → out = none) := by
  cases h with
  | external => exact ⟨.inl rfl, fun _ => rfl⟩
  | repeated _ hname => exact ⟨.inr ⟨_, rfl⟩, fun hid => absurd hid hname⟩
  | internal => exact ⟨.inl rfl, fun _ => rfl⟩

end Scope

mutual

/-- The span with the references in it replaced, and these references. -/
inductive Span.Met : Span → Span → List Meeting → Prop
  | same {span : Span} (h : span.isLeaf = true) : Span.Met span span []
  | emphasized {content content' : List Span} {meetings : List Meeting}
      (h : Spans.Met content content' meetings) :
      Span.Met (.emphasized content) (.emphasized content') meetings
  | strong {content content' : List Span} {meetings : List Meeting}
      (h : Spans.Met content content' meetings) :
      Span.Met (.strong content) (.strong content') meetings
  | link {content content' : List Span} {target : Target} {title : Option String}
      {meetings : List Meeting} (h : Spans.Met content content' meetings) :
      Span.Met (.link content target title) (.link content' target title) meetings
  | reference {kind kind' : ReferenceKind} {source : String} {out : Span}
      {inner : List Meeting} (h : ReferenceKind.Met kind kind' inner) :
      Span.Met (.reference kind source) out
        (inner ++ [.reference ⟨kind', source, out⟩])

/-- The reference with its text resolved. Only the text of a link by id is. -/
inductive ReferenceKind.Met : ReferenceKind → ReferenceKind → List Meeting → Prop
  | linkId {content content' : List Span} {id : String} {meetings : List Meeting}
      (h : Spans.Met content content' meetings) :
      ReferenceKind.Met (.linkId content id) (.linkId content' id) meetings
  | same {kind : ReferenceKind} (h : ∀ content id, kind ≠ .linkId content id) :
      ReferenceKind.Met kind kind []

inductive Spans.Met : List Span → List Span → List Meeting → Prop
  | nil : Spans.Met [] [] []
  | cons {span out : Span} {spans outs : List Span} {first rest : List Meeting}
      (h : Span.Met span out first) (hrest : Spans.Met spans outs rest) :
      Spans.Met (span :: spans) (out :: outs) (first ++ rest)

end

mutual

/-- The block with the references in it replaced and the footnote definitions in it
finished, and these references and definitions. -/
inductive Block.Met : Block → Option Block → List Meeting → Prop
  | same {block : Block} (h : block.isLeaf = true) (hplain : block.isTarget = false) :
      Block.Met block (some block) []
  | anchor {id : String} {out : Block} (h : (Block.anchor id).StaysIn out) :
      Block.Met (.anchor id) (some out) []
  | linkDefinition {definition : LinkDefinition} {out : Option Block}
      (h : Scope.LeavesInvalid (.linkDefinition definition) out)
      (hanonymous : definition.id = "" → out = none) :
      Block.Met (.linkDefinition definition) out []
  | linkAlias {indirection : LinkAlias} {out : Option Block}
      (h : Scope.LeavesInvalid (.linkAlias indirection) out) :
      Block.Met (.linkAlias indirection) out []
  | paragraph {content content' : List Span} {meetings : List Meeting}
      (h : Spans.Met content content' meetings) :
      Block.Met (.paragraph content) (some (.paragraph content')) meetings
  | header {header : Header} {text : List Span} {out : Block}
      {meetings : List Meeting} (htext : Spans.Met header.content text meetings)
      (h : (Block.header { header with content := text }).StaysIn out) :
      Block.Met (.header header) (some out) meetings
  | title {title : Title} {text : List Span} {out : Block}
      {meetings : List Meeting} (htext : Spans.Met title.content text meetings)
      (h : (Block.title { title with content := text }).StaysIn out) :
      Block.Met (.title title) (some out) meetings
  | sectionOf {header : Header} {text : List Span} {content content' : List Block}
      {out : Block} {first rest : List Meeting}
      (htext : Spans.Met header.content text first)
      (hcontent : Blocks.Met content content' rest)
      (h : (Block.sectionOf { header with content := text } content').StaysIn out) :
      Block.Met (.sectionOf header content) (some out) (first ++ rest)
  | quoted {content content' : List Block} {meetings : List Meeting}
      (h : Blocks.Met content content' meetings) :
      Block.Met (.quoted content) (some (.quoted content')) meetings
  | citation {label : String} {id id' : Option String}
      {content content' : List Block} {out : Block} {meetings : List Meeting}
      (hcontent : Blocks.Met content content' meetings)
      (h : (Block.citation label id' content').StaysIn out) :
      Block.Met (.citation label id content) (some out) meetings
  | footnoteDefinition {label : FootnoteLabel} {content content' : List Block}
      {out : Block} {inner : List Meeting}
      (h : Blocks.Met content content' inner) :
      Block.Met (.footnoteDefinition label content) (some out)
        (.definition ⟨label, content', out⟩ :: inner)
  | footnote {id label : String} {content content' : List Block}
      {meetings : List Meeting} (h : Blocks.Met content content' meetings) :
      Block.Met (.footnote id label content) (some (.footnote id label content'))
        meetings
  | reference {kind kind' : ReferenceKind} {source : String} {out : Span}
      {inner : List Meeting} (h : ReferenceKind.Met kind kind' inner) :
      Block.Met (.reference kind source) (some (Scope.blockOfSpan out))
        (inner ++ [.reference ⟨kind', source, out⟩])
  | invalid {fallback fallback' : Block} {problem : Problem}
      {meetings : List Meeting} (h : Block.MetInside fallback fallback' meetings) :
      Block.Met (.invalid fallback problem) (some (.invalid fallback' problem))
        meetings

/-- The same for the fallback of an invalid block, which is no target itself. -/
inductive Block.MetInside : Block → Block → List Meeting → Prop
  | citation {label : String} {id : Option String} {content content' : List Block}
      {meetings : List Meeting} (h : Blocks.Met content content' meetings) :
      Block.MetInside (.citation label id content) (.citation label id content')
        meetings
  | footnoteDefinition {label : FootnoteLabel} {content content' : List Block}
      {meetings : List Meeting} (h : Blocks.Met content content' meetings) :
      Block.MetInside (.footnoteDefinition label content)
        (.footnoteDefinition label content') meetings
  | header {header : Header} {text : List Span} {meetings : List Meeting}
      (h : Spans.Met header.content text meetings) :
      Block.MetInside (.header header) (.header { header with content := text })
        meetings
  | title {title : Title} {text : List Span} {meetings : List Meeting}
      (h : Spans.Met title.content text meetings) :
      Block.MetInside (.title title) (.title { title with content := text }) meetings
  | sectionOf {header : Header} {text : List Span} {content content' : List Block}
      {first rest : List Meeting} (htext : Spans.Met header.content text first)
      (h : Blocks.Met content content' rest) :
      Block.MetInside (.sectionOf header content)
        (.sectionOf { header with content := text } content') (first ++ rest)
  | sealed {block : Block} (h : block.isSealed = true) :
      Block.MetInside block block []

inductive Blocks.Met : List Block → List Block → List Meeting → Prop
  | nil : Blocks.Met [] [] []
  | cons {block : Block} {out : Option Block} {blocks outs : List Block}
      {first rest : List Meeting} (h : Block.Met block out first)
      (hrest : Blocks.Met blocks outs rest) :
      Blocks.Met (block :: blocks) (out.toList ++ outs) (first ++ rest)

end

/-! ## The footnote definitions met -/

mutual

/-- The labels of the footnote definitions that a pass comes to. -/
def Block.labelsMet : Block → List FootnoteLabel
  | .footnoteDefinition label content => label :: Blocks.labelsMet content
  | .sectionOf _ content => Blocks.labelsMet content
  | .quoted content => Blocks.labelsMet content
  | .citation _ _ content => Blocks.labelsMet content
  | .footnote _ _ content => Blocks.labelsMet content
  | .invalid fallback _ => fallback.labelsMetInside
  | _ => []

/-- The same for the fallback of an invalid block; nothing in a quote or a footnote
is met. -/
def Block.labelsMetInside : Block → List FootnoteLabel
  | .citation _ _ content => Blocks.labelsMet content
  | .footnoteDefinition _ content => Blocks.labelsMet content
  | .sectionOf _ content => Blocks.labelsMet content
  | _ => []

def Blocks.labelsMet : List Block → List FootnoteLabel
  | [] => []
  | block :: blocks => block.labelsMet ++ Blocks.labelsMet blocks

end

theorem Declaration.footnote?_anchors (id : Option String) :
    (anchors id).filterMap footnote? = [] := by
  cases id <;> rfl

theorem Declaration.footnote?_ofDefinition (definition : LinkDefinition) :
    [ofDefinition definition].filterMap footnote? = [] := by
  unfold ofDefinition
  split <;> rfl

mutual

theorem Block.labelsMet_eq : ∀ block : Block, block.problems = [] →
    block.labelsMet = block.declarations.filterMap Declaration.footnote?
  | .footnoteDefinition label content, h => by
      simp at h
      rw [Block.labelsMet, Blocks.labelsMet_eq content h, Block.declarations]
      rfl
  | .sectionOf header content, h => by
      simp at h
      rw [Block.labelsMet, Blocks.labelsMet_eq content h.2, Block.declarations,
        List.filterMap_append, Declaration.footnote?_anchors]
      rfl
  | .quoted content, h | .footnote _ _ content, h => by
      simp at h
      rw [Block.labelsMet, Blocks.labelsMet_eq content h, Block.declarations]
  | .citation _ _ content, h => by
      simp at h
      rw [Block.labelsMet, Blocks.labelsMet_eq content h, Block.declarations]
      rfl
  | .invalid _ _, h => by simp at h
  | .header header, _ => (Declaration.footnote?_anchors header.id).symm
  | .title title, _ => (Declaration.footnote?_anchors title.id).symm
  | .linkDefinition definition, _ => (Declaration.footnote?_ofDefinition definition).symm
  | .paragraph _, _ | .codeBlock _ _, _ | .rule, _ | .verbatim _ _, _
  | .decoratedHeader _, _ | .anchor _, _ | .linkAlias _, _ | .reference _ _, _ => rfl

/-- Without invalid blocks a pass comes to the definitions that the index lists. -/
theorem Blocks.labelsMet_eq : ∀ blocks : List Block, Blocks.problems blocks = [] →
    Blocks.labelsMet blocks
      = (Blocks.declarations blocks).filterMap Declaration.footnote?
  | [], _ => rfl
  | block :: blocks, h => by
      simp at h
      rw [Blocks.labelsMet, Block.labelsMet_eq block h.1, Blocks.labelsMet_eq blocks h.2,
        Blocks.declarations, List.filterMap_append]

end

/-- The labels of the definitions among meetings. -/
abbrev Meeting.labels (meetings : List Meeting) : List FootnoteLabel :=
  (meetings.filterMap noted?).map Noted.label

theorem Meeting.labels_append (first rest : List Meeting) :
    labels (first ++ rest) = labels first ++ labels rest := by
  rw [labels, List.filterMap_append, List.map_append]

mutual

theorem Span.Met.labels_eq {before after : Span} {meetings : List Meeting} :
    Span.Met before after meetings → Meeting.labels meetings = []
  | .same _ => rfl
  | .emphasized h => h.labels_eq
  | .strong h => h.labels_eq
  | .link h => h.labels_eq
  | .reference h => by
      rw [Meeting.labels_append, h.labels_eq]
      rfl

theorem ReferenceKind.Met.labels_eq {before after : ReferenceKind}
    {meetings : List Meeting} :
    ReferenceKind.Met before after meetings → Meeting.labels meetings = []
  | .linkId h => h.labels_eq
  | .same _ => rfl

theorem Spans.Met.labels_eq {before after : List Span} {meetings : List Meeting} :
    Spans.Met before after meetings → Meeting.labels meetings = []
  | .nil => rfl
  | .cons h hrest => by rw [Meeting.labels_append, h.labels_eq, hrest.labels_eq]; rfl

end

mutual

theorem Block.Met.labels_eq {before : Block} {after : Option Block}
    {meetings : List Meeting} :
    Block.Met before after meetings → Meeting.labels meetings = before.labelsMet
  | @Block.Met.same block h _ => by
      cases block <;> first | rfl | cases h
  | .anchor _ => rfl
  | .linkDefinition _ _ => rfl
  | .linkAlias _ => rfl
  | .paragraph h => h.labels_eq
  | .header htext _ => htext.labels_eq
  | .title htext _ => htext.labels_eq
  | .sectionOf htext hcontent _ => by
      rw [Meeting.labels_append, htext.labels_eq, hcontent.labels_eq, Block.labelsMet]
      rfl
  | .quoted h => by rw [h.labels_eq, Block.labelsMet]
  | .citation hcontent _ => by rw [hcontent.labels_eq, Block.labelsMet]
  | .footnoteDefinition h => by
      rw [Block.labelsMet, ← h.labels_eq]
      rfl
  | .footnote h => by rw [h.labels_eq, Block.labelsMet]
  | .reference h => by
      rw [Meeting.labels_append, h.labels_eq]
      rfl
  | .invalid h => by rw [h.labels_eq, Block.labelsMet]

theorem Block.MetInside.labels_eq {before after : Block} {meetings : List Meeting} :
    Block.MetInside before after meetings →
      Meeting.labels meetings = before.labelsMetInside
  | .citation h => by rw [h.labels_eq, Block.labelsMetInside]
  | .footnoteDefinition h => by rw [h.labels_eq, Block.labelsMetInside]
  | .header h => h.labels_eq
  | .title h => h.labels_eq
  | .sectionOf htext h => by
      rw [Meeting.labels_append, htext.labels_eq, h.labels_eq, Block.labelsMetInside]
      rfl
  | @Block.MetInside.sealed block h => by
      cases block <;> first | rfl | cases h

/-- The definitions met are read off the blocks. -/
theorem Blocks.Met.labels_eq {before after : List Block} {meetings : List Meeting} :
    Blocks.Met before after meetings →
      Meeting.labels meetings = Blocks.labelsMet before
  | .nil => rfl
  | .cons h hrest => by
      rw [Meeting.labels_append, h.labels_eq, hrest.labels_eq, Blocks.labelsMet]

end

end Crosslink
