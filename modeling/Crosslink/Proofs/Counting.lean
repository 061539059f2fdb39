import Crosslink.Proofs.Nodes
import Crosslink.Proofs.Pass
import Crosslink.Proofs.Repetition

/-!
# Footnotes counted by a pass

A pass numbers a footnote by a count of the definitions met so far, and a
definition in a definition is met later than the one around it.
`Counted place x next Q` is the contract of a step that begins after `place`
definitions and ends after `next`. Running text holds none of them
(`Uncounted`). Blocks are counted in the order in which the index lists their
declarations, so that what they become is read off that list, place by place
(`Scope.notes`, `Scope.counted_resolveBlocks`).
-/

namespace Crosslink

/-! ## Notes -/

/-- A footnote, or a citation by its id. -/
inductive Note where
  | footnote (footnote : NumberedFootnote)
  | citation (id : String)
deriving DecidableEq

/-- The note that a block is; a citation without an id is none. -/
@[simp] def Node.note? : Node → Option Note
  | .block (.footnote id label _) => some (.footnote ⟨id, label⟩)
  | .block (.citation _ id _) => id.map .citation
  | _ => none

abbrev Block.notes (block : Block) : List Note :=
  block.collect Node.note? .everywhere

/-- The notes of a sequence of blocks, those in invalid blocks too. -/
abbrev Blocks.notes (blocks : List Block) : List Note :=
  Blocks.collect Node.note? .everywhere blocks

@[simp] theorem Span.notes (span : Span) :
    span.collect Node.note? .everywhere = [] :=
  Span.collect_of_blocks (fun _ => rfl) _ span

@[simp] theorem Spans.notes (spans : List Span) :
    Spans.collect Node.note? .everywhere spans = [] :=
  Spans.collect_of_blocks (fun _ => rfl) _ spans

@[simp] theorem ReferenceKind.notes (kind : ReferenceKind) :
    kind.collect Node.note? .everywhere = [] :=
  ReferenceKind.collect_of_blocks (fun _ => rfl) _ kind

@[simp] theorem Scope.notes_blockOfSpan (span : Span) :
    (blockOfSpan span).notes = [] := by
  cases span with
  | invalid fallback problem => cases fallback <;> simp [blockOfSpan]
  | _ => simp [blockOfSpan]

/-! ## What declarations become -/

namespace Declaration

@[simp] def isFootnote : Declaration → Bool
  | footnote _ => true
  | _ => false

/-- How many footnotes are declared. -/
def footnoteCount (declarations : List Declaration) : Nat :=
  declarations.countP isFootnote

@[simp] theorem footnoteCount_cons (declaration : Declaration)
    (declarations : List Declaration) :
    footnoteCount (declaration :: declarations)
      = footnoteCount declarations + if declaration.isFootnote then 1 else 0 :=
  List.countP_cons

@[simp] theorem footnoteCount_append (first second : List Declaration) :
    footnoteCount (first ++ second)
      = footnoteCount first + footnoteCount second :=
  List.countP_append

@[simp] theorem footnoteCount_anchors (id : Option String) :
    footnoteCount (anchors id) = 0 := by
  cases id <;> rfl

end Declaration

namespace Scope

/-- What the footnote definition at `place` becomes; a repeated one becomes
none. -/
def numbered? (s : Scope) (place : Nat) (label : FootnoteLabel) :
    Option NumberedFootnote :=
  if (s.repeatedFootnote? label).isSome then none
  else s.index.footnotes.definition place

/-- The notes that declarations become if `place` footnotes were declared
before them. -/
def notes (s : Scope) (place : Nat) : List Declaration → List Note
  | [] => []
  | .footnote label :: declarations =>
    ((s.numbered? place label).map Note.footnote).toList
      ++ s.notes (place + 1) declarations
  | .citation label :: declarations =>
    ((citationId label none).map Note.citation).toList
      ++ s.notes place declarations
  | .anchor _ :: declarations => s.notes place declarations
  | .anonymous _ :: declarations => s.notes place declarations
  | .definition _ _ :: declarations => s.notes place declarations

variable {s : Scope}

theorem notes_append (first second : List Declaration) (place : Nat) :
    s.notes place (first ++ second)
      = s.notes place first
        ++ s.notes (place + Declaration.footnoteCount first) second := by
  induction first generalizing place with
  | nil => rfl
  | cons declaration first ih =>
      cases declaration <;>
        simp [notes, ih, Nat.add_assoc, Nat.add_comm 1]

@[simp] theorem notes_anchors (place : Nat) (id : Option String) :
    s.notes place (Declaration.anchors id) = [] := by
  cases id <;> rfl

end Scope

/-! ## Counting the definitions met -/

namespace Scope

variable {s : Scope} {α β : Type} {place next last : Nat}

/-- Started after `place` footnote definitions, the step ends after `next`
of them, and its result satisfies `Q`. -/
def Counted (place : Nat) (x : Pass α) (next : Nat) (Q : α → Prop) : Prop :=
  ∀ st : PassState, st.footnoteNext = place →
    (x st).2.footnoteNext = next ∧ Q (x st).1

theorem Counted.pure {a : α} {Q : α → Prop} (h : Q a) :
    Counted place (Pure.pure a) place Q :=
  fun _ hst => ⟨hst, h⟩

theorem Counted.bind {x : Pass α} {f : α → Pass β} {P : α → Prop} {Q : β → Prop}
    (hx : Counted place x next P) (hf : ∀ a, P a → Counted next (f a) last Q) :
    Counted place (x >>= f) last Q := by
  intro st hst
  obtain ⟨hnext, hP⟩ := hx st hst
  exact hf _ hP _ hnext

theorem Counted.map {x : Pass α} {f : α → β} {P : α → Prop} {Q : β → Prop}
    (hx : Counted place x next P) (h : ∀ a, P a → Q (f a)) :
    Counted place (x >>= fun a => Pure.pure (f a)) next Q :=
  hx.bind fun a ha => .pure (h a ha)

theorem Counted.mono {x : Pass α} {P Q : α → Prop} (hx : Counted place x next P)
    (h : ∀ a, P a → Q a) : Counted place x next Q :=
  fun st hst => ⟨(hx st hst).1, h _ (hx st hst).2⟩

/-- The step meets no footnote definition. -/
abbrev Uncounted (x : Pass α) : Prop :=
  ∀ place, Counted place x place fun _ => True

theorem uncounted_pure (a : α) : Uncounted (Pure.pure a : Pass α) :=
  fun _ => .pure trivial

theorem Quiet.uncounted {x : Pass α} (h : Quiet x) : Uncounted x := by
  intro place st hst
  obtain ⟨_, heq⟩ := h st
  rw [heq]
  exact ⟨hst, trivial⟩

theorem Uncounted.bind {x : Pass α} {f : α → Pass β} (hx : Uncounted x)
    (hf : ∀ a, Uncounted (f a)) : Uncounted (x >>= f) :=
  fun place => (hx place).bind fun a _ => hf a place

theorem counted_invalidBlock {fallback : Block} {failure : Failure}
    {Q : Block → Prop} (h : Q (.invalid fallback failure.problem)) :
    Counted place (s.invalidBlock fallback failure) place Q :=
  fun _ hst => ⟨hst, h⟩

/-! ## Running text holds no definition -/

theorem uncounted_lookUpId (id : String) : Uncounted (s.lookUpId id) :=
  fun _ _ hst => ⟨hst, trivial⟩

theorem uncounted_resolveId (shown : Appearance) (id source : String) :
    Uncounted (s.resolveId shown id source) := by
  unfold resolveId
  by_cases hid : id = ""
  · simp only [if_pos hid]
    have hnext : Uncounted s.nextAnonymous := fun _ _ hst => ⟨hst, trivial⟩
    exact hnext.bind fun outcome =>
      (quiet_settleId shown id source outcome).uncounted
  · simp only [if_neg hid]
    exact (uncounted_lookUpId id).bind fun outcome =>
      (quiet_settleId shown id source outcome).uncounted

theorem uncounted_resolveCitation (label source : String) :
    Uncounted (s.resolveCitation label source) := by
  unfold resolveCitation
  split
  · exact uncounted_pure _
  · exact (quiet_invalidSpan _ _).uncounted

theorem uncounted_resolveFootnote (label : FootnoteLabel) (source : String) :
    Uncounted (s.resolveFootnote label source) := by
  have hfind : Uncounted (s.footnoteFor label) := by
    cases label <;> exact fun _ _ hst => ⟨hst, trivial⟩
  refine hfind.bind fun found => ?_
  cases found with
  | ok footnote => exact uncounted_pure _
  | error failure => exact (quiet_invalidSpan _ _).uncounted

mutual

theorem uncounted_resolveSpan : ∀ span : Span, Uncounted (s.resolveSpan span)
  | .emphasized content => by
      rw [resolveSpan]
      exact (uncounted_resolveSpans content).bind fun _ => uncounted_pure _
  | .strong content => by
      rw [resolveSpan]
      exact (uncounted_resolveSpans content).bind fun _ => uncounted_pure _
  | .link content _ _ => by
      rw [resolveSpan]
      exact (uncounted_resolveSpans content).bind fun _ => uncounted_pure _
  | .reference kind source => by
      rw [resolveSpan]
      exact uncounted_resolveReference kind source
  | .text _ | .literal _ | .verbatim _ _ | .image _ _ _ | .citationLink _ _
  | .footnoteLink _ _ | .invalid _ _ => uncounted_pure _

theorem uncounted_resolveReference : ∀ (kind : ReferenceKind) (source : String),
    Uncounted (s.resolveReference kind source)
  | .citation label, source => uncounted_resolveCitation label source
  | .footnote label, source => uncounted_resolveFootnote label source
  | .imageId alt id, source => by
      rw [resolveReference]
      exact uncounted_resolveId (.image alt) id source
  | .imagePath alt path title, source => by
      rw [resolveReference]
      exact (quiet_settlePath (.image alt) path title source).uncounted
  | .linkId content id, source => by
      rw [resolveReference]
      exact (uncounted_resolveSpans content).bind fun text =>
        uncounted_resolveId (.link text) id source
  | .linkPath content path title, source => by
      rw [resolveReference]
      exact (quiet_settlePath (.link content) path title source).uncounted

theorem uncounted_resolveSpans : ∀ spans : List Span,
    Uncounted (s.resolveSpans spans)
  | [] => uncounted_pure _
  | span :: spans => by
      rw [resolveSpans]
      exact (uncounted_resolveSpan span).bind fun _ =>
        (uncounted_resolveSpans spans).bind fun _ => uncounted_pure _

end

/-! ## Blocks become the notes of their declarations -/

theorem counted_checkAnchor (id : Option String) (block : Block) :
    Counted place (s.checkAnchor id block) place fun out =>
      out.notes = block.notes := by
  unfold checkAnchor
  split
  · exact .pure rfl
  · split
    · exact counted_invalidBlock (by simp)
    · exact .pure rfl

theorem counted_finishCitation (label : String) (content : List Block) :
    Counted place (s.finishCitation label none content) place fun out =>
      out.notes
        = Blocks.notes content
          ++ ((citationId label none).map Note.citation).toList := by
  unfold finishCitation
  by_cases hname : label = ""
  · rw [if_pos hname]
    exact counted_invalidBlock (by simp [citationId, hname])
  · rw [if_neg hname]
    dsimp only
    split
    · exact counted_invalidBlock (by simp [citationId, hname])
    · exact .pure (by simp [citationId, hname])

theorem counted_finishFootnote (ordinal : Nat) (label : FootnoteLabel)
    (content : List Block) :
    Counted place (s.finishFootnote ordinal label content) place fun out =>
      out.notes
        = Blocks.notes content
          ++ ((s.numbered? ordinal label).map Note.footnote).toList := by
  unfold finishFootnote numbered?
  cases s.repeatedFootnote? label with
  | some key => exact counted_invalidBlock (by simp)
  | none =>
      cases s.index.footnotes.definition ordinal with
      | some assigned => exact .pure (by simp)
      | none => exact counted_invalidBlock (by simp)

/-- A link definition or an alias that does not disappear becomes invalid. -/
def LeavesInvalid (block : Block) (out : Option Block) : Prop :=
  out = none ∨ ∃ problem, out = some (.invalid block problem)

theorem LeavesInvalid.notes_eq {block : Block} {out : Option Block}
    (h : LeavesInvalid block out) (hnone : block.notes = []) :
    Blocks.notes out.toList = [] := by
  obtain rfl | ⟨problem, rfl⟩ := h
  · rfl
  · simp [hnone]

theorem counted_someInvalid {fallback : Block} {failure : Failure} :
    Counted place (do return some (← s.invalidBlock fallback failure)) place
      (LeavesInvalid fallback) :=
  fun _ hst => ⟨hst, .inr ⟨failure.problem, rfl⟩⟩

theorem counted_resolveAlias (indirection : LinkAlias) :
    Counted place (s.resolveAlias indirection) place
      (LeavesInvalid (.linkAlias indirection)) := by
  unfold resolveAlias
  dsimp only
  split
  · exact counted_someInvalid
  · refine (uncounted_lookUpId indirection.id place).bind fun outcome _ => ?_
    split
    · split
      · exact counted_someInvalid
      · exact .pure (.inl rfl)
    · exact .pure (.inl rfl)

theorem counted_resolveDefinition (definition : LinkDefinition) :
    Counted place (s.resolveDefinition definition) place
      (LeavesInvalid (.linkDefinition definition)) := by
  unfold resolveDefinition
  split
  · exact .pure (.inl rfl)
  · split
    · exact counted_someInvalid
    · exact .pure (.inl rfl)

mutual

theorem counted_resolveBlock : ∀ (block : Block) (place : Nat),
    block.problems = [] → block.notes = [] →
    Counted place (s.resolveBlock block)
      (place + Declaration.footnoteCount block.declarations) fun out =>
        (Blocks.notes out.toList).Perm (s.notes place block.declarations)
  | .paragraph content, place, _, _ => by
      rw [resolveBlock]
      exact (uncounted_resolveSpans content place).map fun text _ => by
        simp [Block.declarations, notes]
  | .codeBlock _ _, _, _, _ | .rule, _, _, _ | .verbatim _ _, _, _, _
  | .decoratedHeader _, _, _, _ => by
      rw [resolveBlock]
      exact .pure (by simp [Block.declarations, notes])
  | .header header, place, _, _ => by
      rw [resolveBlock, Block.declarations, Declaration.footnoteCount_anchors]
      refine (uncounted_resolveSpans header.content place).bind fun text _ => ?_
      exact (counted_checkAnchor header.id _).map fun out hout => by simp [hout]
  | .title title, place, _, _ => by
      rw [resolveBlock, Block.declarations, Declaration.footnoteCount_anchors]
      refine (uncounted_resolveSpans title.content place).bind fun text _ => ?_
      exact (counted_checkAnchor title.id _).map fun out hout => by simp [hout]
  | .sectionOf header content, place, hclean, hraw => by
      simp at hclean hraw
      rw [resolveBlock, Block.declarations, notes_append]
      simp only [Declaration.footnoteCount_append, Declaration.footnoteCount_anchors, notes_anchors,
        Nat.zero_add, Nat.add_zero, List.nil_append]
      refine (uncounted_resolveSpans header.content place).bind fun text _ => ?_
      refine (counted_resolveBlocks content place hclean.2 hraw).bind
        fun content' hcontent => ?_
      exact (counted_checkAnchor header.id _).map fun out hout => by
        simpa [hout] using hcontent
  | .quoted content, place, hclean, hraw => by
      simp at hclean hraw
      rw [resolveBlock, Block.declarations]
      exact (counted_resolveBlocks content place hclean hraw).map
        fun content' hcontent => by simpa using hcontent
  | .anchor id, place, _, _ => by
      rw [resolveBlock]
      exact (counted_checkAnchor (some id) (.anchor id)).map fun out hout => by
        simp [hout, Block.declarations, notes]
  | .linkDefinition definition, place, _, _ => by
      have hnone : s.notes place [.ofDefinition definition] = []
          ∧ Declaration.footnoteCount [.ofDefinition definition] = 0 := by
        unfold Declaration.ofDefinition
        split <;> exact ⟨rfl, rfl⟩
      rw [resolveBlock, Block.declarations, hnone.1, hnone.2]
      exact (counted_resolveDefinition definition).mono fun out hout => by
        rw [hout.notes_eq (by simp)]
  | .linkAlias indirection, place, _, _ => by
      rw [resolveBlock]
      exact (counted_resolveAlias indirection).mono fun out hout => by
        rw [hout.notes_eq (by simp)]
        exact .nil
  | .citation label id content, place, hclean, hraw => by
      simp at hclean hraw
      obtain ⟨hcontent, rfl⟩ := hraw
      rw [resolveBlock, Block.declarations]
      refine (counted_resolveBlocks content place hclean hcontent).bind
        fun content' hnotes => ?_
      refine (counted_finishCitation label content').map fun out hout => ?_
      simp only [Option.toList_some, Blocks.collect_cons, Blocks.collect_nil,
        List.append_nil, hout, notes]
      exact List.perm_append_comm.trans (hnotes.append_left _)
  | .footnoteDefinition label content, place, hclean, hraw => by
      simp at hclean hraw
      have hnext : Counted place nextFootnote (place + 1) (· = place) :=
        fun st hst => ⟨congrArg (· + 1) hst, hst⟩
      have hcount : place + Declaration.footnoteCount
            (.footnote label :: Blocks.declarations content)
          = place + 1 + Declaration.footnoteCount (Blocks.declarations content) := by
        simp
        omega
      rw [resolveBlock, Block.declarations, hcount]
      refine hnext.bind fun ordinal hordinal => ?_
      subst hordinal
      refine (counted_resolveBlocks content (ordinal + 1) hclean hraw).bind
        fun content' hnotes => ?_
      refine (counted_finishFootnote ordinal label content').map fun out hout => ?_
      simp only [Option.toList_some, Blocks.collect_cons, Blocks.collect_nil,
        List.append_nil, hout, notes]
      exact List.perm_append_comm.trans (hnotes.append_left _)
  | .footnote _ _ _, _, _, hraw => by simp at hraw
  | .reference kind source, place, _, _ => by
      rw [resolveBlock]
      exact (uncounted_resolveReference kind source place).map fun span _ => by
        simp [Block.declarations, notes]
  | .invalid _ _, _, hclean, _ => by simp at hclean

/-- Blocks without invalid nodes and notes of their own become the notes that
their declarations stand for. -/
theorem counted_resolveBlocks : ∀ (blocks : List Block) (place : Nat),
    Blocks.problems blocks = [] → Blocks.notes blocks = [] →
    Counted place (s.resolveBlocks blocks)
      (place + Declaration.footnoteCount (Blocks.declarations blocks)) fun outs =>
        (Blocks.notes outs).Perm (s.notes place (Blocks.declarations blocks))
  | [], _, _, _ => .pure .nil
  | block :: blocks, place, hclean, hraw => by
      simp at hclean hraw
      rw [resolveBlocks, Blocks.declarations, notes_append,
        Declaration.footnoteCount_append, ← Nat.add_assoc]
      refine (counted_resolveBlock block place hclean.1 hraw.1).bind
        fun out hout => ?_
      refine (counted_resolveBlocks blocks _ hclean.2 hraw.2).map
        fun outs houts => ?_
      rw [Blocks.notes, Blocks.collect_append]
      exact hout.append houts

end

end Scope

end Crosslink
