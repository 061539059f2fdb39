import Crosslink.Proofs.Anchors
import Crosslink.Proofs.Lockstep
import Crosslink.Proofs.Matches

/-!
# The two phases refine a single pass

A single pass that knows the tree runs in step with the first pass over the
same blocks (`Crosslink.Proofs.Lockstep`), and whatever the second pass makes
of what the first one left matches what the single pass makes
(`Document.inStep_resolveBlocks`, by recursion over the nodes). So both
phases together come to the same document and the same reports, which may
come in another order (`Document.phases_refine_pass`). References in the text
of references and aliases for the empty id are left out: the text of some
references is resolved by one pass only, and an empty id is anonymous.
-/

namespace Crosslink

/-! ## Running text, in step -/

mutual

theorem Scope.resolveSpan_eq_pure (s : Scope) : ∀ span : Span, span.pending = [] →
    s.resolveSpan span = pure span
  | .emphasized content, h => by
      rw [resolveSpan, s.resolveSpans_eq_pure content (by simpa using h), pure_bind]
  | .strong content, h => by
      rw [resolveSpan, s.resolveSpans_eq_pure content (by simpa using h), pure_bind]
  | .link content _ _, h => by
      rw [resolveSpan, s.resolveSpans_eq_pure content (by simpa using h), pure_bind]
  | .reference _ _, h => by simp at h
  | .text _, _ | .literal _, _ | .verbatim _ _, _ | .image _ _ _, _
  | .citationLink _ _, _ | .footnoteLink _ _, _ | .invalid _ _, _ => rfl

/-- A text without references takes nothing to resolve. -/
theorem Scope.resolveSpans_eq_pure (s : Scope) : ∀ spans : List Span,
    Spans.pending spans = [] → s.resolveSpans spans = pure spans
  | [], _ => rfl
  | span :: spans, h => by
      simp only [Spans.collect_cons, List.append_eq_nil_iff] at h
      rw [resolveSpans, s.resolveSpan_eq_pure span h.1,
        s.resolveSpans_eq_pure spans h.2, pure_bind, pure_bind]

end

namespace Document

open Scope

section

variable {d : Document} {tree : TreeIndex}

theorem inStep_settlePath {shown : Appearance} (hshown : shown.Plain)
    (path : WrittenPath) (title : Option String) (source : String) :
    d.firstScope.InStep tree (d.firstScope.settlePath shown path title source)
      ((d.firstScope.withTree tree).settlePath shown path title source)
      (Span.Meets d tree) :=
  .of_quiet (quiet_settlePath _ _ _ _) (quiet_settlePath _ _ _ _)
    (ensures_settlePath shown path title source)
    (ensures_settlePath shown path title source)
    fun _ _ _ _ h h' => meets_settlesPath hshown h h'

theorem inStep_resolveId (hnames : d.NamesAliases) {shown : Appearance}
    (hshown : shown.Plain) (id source : String) :
    d.firstScope.InStep tree (d.firstScope.resolveId shown id source)
      ((d.firstScope.withTree tree).resolveId shown id source)
      (Span.Meets d tree) := by
  have hsettle : ∀ outcome completed, (d.firstScope.AnswersReference id outcome
        ∧ completed = d.firstScope.complete tree outcome) →
      d.firstScope.InStep tree (d.firstScope.settleId shown id source outcome)
        ((d.firstScope.withTree tree).settleId shown id source completed)
        (Span.Meets d tree) := by
    rintro outcome _ ⟨hanswer, rfl⟩
    exact .of_quiet (quiet_settleId _ _ _ _) (quiet_settleId _ _ _ _)
      (ensures_settleId shown id source outcome)
      (ensures_settleId shown id source _)
      fun _ _ _ _ h h' => meets_settlesId hnames hshown hanswer h h'
  unfold resolveId
  by_cases hid : id = ""
  · subst hid
    exact inStep_nextAnonymous.bind hsettle
  · simp only [if_neg hid]
    refine (inStep_lookUpId rfl id).bind fun outcome completed h => ?_
    refine hsettle outcome completed ⟨?_, h.2⟩
    rw [AnswersReference, if_neg hid]
    exact h.1

theorem inStep_resolveCitation (label source : String) :
    d.firstScope.InStep tree (d.firstScope.resolveCitation label source)
      ((d.firstScope.withTree tree).resolveCitation label source)
      (Span.Meets d tree) := by
  have hsame : (d.firstScope.withTree tree).citation label
      = d.firstScope.citation label := rfl
  unfold resolveCitation
  rw [hsame]
  cases hcitation : d.firstScope.citation label with
  | error failure => exact inStep_invalidSpan (Span.meets_of_isLeaf rfl)
  | ok span =>
      refine .pure ?_
      unfold Scope.citation at hcitation
      split at hcitation
      · cases hcitation
      · split at hcitation <;> cases hcitation
        exact Span.meets_of_isLeaf rfl

theorem inStep_resolveFootnote (label : FootnoteLabel) (source : String) :
    d.firstScope.InStep tree (d.firstScope.resolveFootnote label source)
      ((d.firstScope.withTree tree).resolveFootnote label source)
      (Span.Meets d tree) := by
  refine (inStep_footnoteFor label).bind fun _ found h => ?_
  subst h
  cases found with
  | ok footnote => exact .pure (Span.meets_of_isLeaf rfl)
  | error failure => exact inStep_invalidSpan (Span.meets_of_isLeaf rfl)

theorem inStep_resolveReference (hnames : d.NamesAliases) (source : String) :
    ∀ kind : ReferenceKind, kind.nesting = [] →
    kind.collect Node.pending? .everywhere = [] →
    d.firstScope.InStep tree (d.firstScope.resolveReference kind source)
      ((d.firstScope.withTree tree).resolveReference kind source)
      (Span.Meets d tree)
  | .citation label, _, _ => inStep_resolveCitation label source
  | .footnote label, _, _ => inStep_resolveFootnote label source
  | .imageId alt id, _, _ => by
      rw [resolveReference, resolveReference]
      exact inStep_resolveId hnames ⟨rfl, rfl⟩ id source
  | .imagePath alt path title, _, _ => by
      rw [resolveReference, resolveReference]
      exact inStep_settlePath ⟨rfl, rfl⟩ path title source
  | .linkId content id, hnone, hplain => by
      have htext := Spans.collect_outsideInvalid hplain
      have hshown : (Appearance.link content).Plain := ⟨hnone, hplain⟩
      rw [resolveReference, resolveReference, resolveSpans_eq_pure _ content htext,
        resolveSpans_eq_pure _ content htext, pure_bind, pure_bind]
      exact inStep_resolveId hnames hshown id source
  | .linkPath content path title, hnone, hplain => by
      have hshown : (Appearance.link content).Plain := ⟨hnone, hplain⟩
      rw [resolveReference, resolveReference]
      exact inStep_settlePath hshown path title source

mutual

theorem inStep_resolveSpan (hnames : d.NamesAliases) : ∀ span : Span,
    span.nesting = [] →
    d.firstScope.InStep tree (d.firstScope.resolveSpan span)
      ((d.firstScope.withTree tree).resolveSpan span) (Span.Meets d tree)
  | .emphasized content, hnone => by
      rw [resolveSpan, resolveSpan]
      refine (inStep_resolveSpans hnames content (by simpa using hnone)).map
        fun middle whole h out problems hout => ?_
      cases hout with
      | emphasized htext => exact .emphasized (h _ _ htext)
  | .strong content, hnone => by
      rw [resolveSpan, resolveSpan]
      refine (inStep_resolveSpans hnames content (by simpa using hnone)).map
        fun middle whole h out problems hout => ?_
      cases hout with
      | strong htext => exact .strong (h _ _ htext)
  | .link content _ _, hnone => by
      rw [resolveSpan, resolveSpan]
      refine (inStep_resolveSpans hnames content (by simpa using hnone)).map
        fun middle whole h out problems hout => ?_
      cases hout with
      | link htext => exact .link (h _ _ htext)
  | .reference kind source, hnone => by
      simp at hnone
      rw [resolveSpan, resolveSpan]
      exact inStep_resolveReference hnames source kind hnone.1 hnone.2
  | .text _, _ | .literal _, _ | .verbatim _ _, _ | .image _ _ _, _
  | .citationLink _ _, _ | .footnoteLink _ _, _ | .invalid _ _, _ =>
      .pure (Span.meets_of_isLeaf rfl)

theorem inStep_resolveSpans (hnames : d.NamesAliases) : ∀ spans : List Span,
    Spans.nesting spans = [] →
    d.firstScope.InStep tree (d.firstScope.resolveSpans spans)
      ((d.firstScope.withTree tree).resolveSpans spans) (Spans.Meets d tree)
  | [], _ => .pure fun outs problems houts => by cases houts; exact .nil
  | span :: spans, hnone => by
      simp only [Spans.collect_cons, List.append_eq_nil_iff] at hnone
      rw [resolveSpans, resolveSpans]
      refine (inStep_resolveSpan hnames span hnone.1).bind fun middle whole h => ?_
      refine (inStep_resolveSpans hnames spans hnone.2).map
        fun middles wholes hrest outs problems houts => ?_
      cases houts with
      | cons hspan hspans => exact .cons (h _ _ hspan) (hrest _ _ hspans)

end

end

end Document

/-! ## Blocks, in step -/

namespace Document

open Scope

section

variable {d : Document} {tree : TreeIndex}

/-- A checked anchor is kept by both phases or invalid after the first one. -/
theorem inStep_checkAnchor {id : Option String} {middle whole : Block}
    (hkept : (d.secondScope tree).KeepsAnchor id →
      Blocks.Meets d tree [middle] [whole])
    (hinside : ∀ out problems,
      Block.YieldsInside (d.secondScope tree) middle out problems →
        Block.Matches d.firstScope whole out) :
    d.firstScope.InStep tree (d.firstScope.checkAnchor id middle)
      ((d.firstScope.withTree tree).checkAnchor id whole)
      fun out out' => Blocks.Meets d tree [out] [out'] := by
  cases id with
  | none => exact .pure (hkept fun i hi => by cases hi)
  | some i =>
      cases hdup : d.firstScope.index.anchors.isDuplicate i with
      | true =>
          have hdup' : (d.firstScope.withTree tree).index.anchors.isDuplicate i = true :=
            hdup
          rw [checkAnchor, checkAnchor, if_pos hdup, if_pos hdup']
          exact inStep_invalidBlock (Blocks.meets_invalid hinside)
      | false =>
          have hdup' : (d.firstScope.withTree tree).index.anchors.isDuplicate i = false :=
            hdup
          rw [checkAnchor, checkAnchor, hdup, hdup']
          refine .pure (hkept fun j hj => ?_)
          obtain rfl := Option.some.inj hj
          exact (d.secondScope_anchors tree).not_isDuplicate hdup

theorem inStep_finishCitation (label : String) (id : Option String)
    {middle whole : List Block} (h : Blocks.Meets d tree middle whole) :
    d.firstScope.InStep tree (d.firstScope.finishCitation label id middle)
      ((d.firstScope.withTree tree).finishCitation label id whole)
      fun out out' => Blocks.Meets d tree [out] [out'] := by
  have hinside : ∀ {id : Option String} out problems,
      Block.YieldsInside (d.secondScope tree) (.citation label id middle) out problems →
        Block.Matches d.firstScope (.citation label id whole) out := by
    intro id out problems hout
    cases hout with
    | citation hcontent => exact .citation (h _ _ hcontent)
    | sealed hsealed => cases hsealed
  unfold finishCitation
  by_cases hname : label = ""
  · rw [if_pos hname, if_pos hname]
    exact inStep_invalidBlock (Blocks.meets_invalid hinside)
  · rw [if_neg hname, if_neg hname, index_withTree]
    dsimp only
    cases hdup : d.firstScope.index.citations.isDuplicate label with
    | true => exact inStep_invalidBlock (Blocks.meets_invalid hinside)
    | false =>
        refine .pure (Blocks.meets_of fun out problems hout => ?_)
        cases hout with
        | citation hcontent hfinish =>
            cases hfinish with
            | nameless hempty => exact absurd hempty hname
            | kept _ _ => exact ⟨_, rfl, .citation (h _ _ hcontent)⟩
            | repeated _ hdup' =>
                rw [(d.secondScope_citations tree).not_isDuplicate hdup] at hdup'
                cases hdup'

theorem inStep_finishFootnote (place : Nat) (label : FootnoteLabel)
    {middle whole : List Block} (h : Blocks.Meets d tree middle whole) :
    d.firstScope.InStep tree (d.firstScope.finishFootnote place label middle)
      ((d.firstScope.withTree tree).finishFootnote place label whole)
      fun out out' => Blocks.Meets d tree [out] [out'] := by
  have hinside : ∀ out problems, Block.YieldsInside (d.secondScope tree)
        (.footnoteDefinition label middle) out problems →
      Block.Matches d.firstScope (.footnoteDefinition label whole) out := by
    intro out problems hout
    cases hout with
    | footnoteDefinition hcontent => exact .footnoteDefinition (h _ _ hcontent)
    | sealed hsealed => cases hsealed
  have hrepeated : (d.firstScope.withTree tree).repeatedFootnote? label
      = d.firstScope.repeatedFootnote? label := by
    cases label <;> rfl
  unfold finishFootnote
  rw [hrepeated, index_withTree]
  cases d.firstScope.repeatedFootnote? label with
  | some key => exact inStep_invalidBlock (Blocks.meets_invalid hinside)
  | none =>
      cases d.firstScope.index.footnotes.definition place with
      | none => exact inStep_invalidBlock (Blocks.meets_invalid hinside)
      | some assigned =>
          refine .pure (Blocks.meets_of fun out problems hout => ?_)
          cases hout with
          | footnote hcontent => exact ⟨_, rfl, .footnote (h _ _ hcontent)⟩

/-- A block that is always there. -/
theorem inStep_some {x y : Pass Block}
    (h : d.firstScope.InStep tree x y fun middle whole =>
      Blocks.Meets d tree [middle] [whole]) :
    d.firstScope.InStep tree (do return some (← x)) (do return some (← y))
      fun middle whole => Blocks.Meets d tree middle.toList whole.toList :=
  h.map fun _ _ hmeets => hmeets

theorem inStep_someInvalid {block : Block} (hsealed : block.isSealed = true)
    (failure : Failure) :
    d.firstScope.InStep tree
      (do return some (← d.firstScope.invalidBlock block failure))
      (do return some (← (d.firstScope.withTree tree).invalidBlock block failure))
      fun middle whole => Blocks.Meets d tree middle.toList whole.toList :=
  inStep_some (inStep_invalidBlock (Blocks.meets_sealed hsealed))

/-- An alias disappears in both, or is invalid in both. -/
theorem inStep_resolveAlias (indirection : LinkAlias) :
    d.firstScope.InStep tree (d.firstScope.resolveAlias indirection)
      ((d.firstScope.withTree tree).resolveAlias indirection)
      fun middle whole => Blocks.Meets d tree middle.toList whole.toList := by
  unfold resolveAlias
  dsimp only
  rw [index_withTree]
  split
  · exact inStep_someInvalid rfl _
  · refine (inStep_lookUpId rfl indirection.id).bind fun outcome completed h => ?_
    obtain ⟨-, rfl⟩ := h
    cases outcome with
    | found destination => exact .pure Blocks.meets_nil
    | missing last => exact .pure Blocks.meets_nil
    | failed failure =>
        dsimp only [complete]
        split
        · exact inStep_someInvalid rfl failure
        · exact .pure Blocks.meets_nil
    | deferred last =>
        -- What is put off never ended in the aliases.
        have hends := isAliasLoop_searchTree d.firstScope tree last
        dsimp only [complete]
        cases hfound : d.firstScope.searchTree tree last with
        | failed failure =>
            have hfailure : failure.isAliasLoop = false := by
              rw [hfound] at hends
              exact hends
            dsimp only
            rw [hfailure]
            exact .pure Blocks.meets_nil
        | _ => exact .pure Blocks.meets_nil

theorem inStep_resolveDefinition (definition : LinkDefinition) :
    d.firstScope.InStep tree (d.firstScope.resolveDefinition definition)
      ((d.firstScope.withTree tree).resolveDefinition definition)
      fun middle whole => Blocks.Meets d tree middle.toList whole.toList := by
  unfold resolveDefinition
  cases definition.target with
  | external url => exact .pure Blocks.meets_nil
  | internal path =>
      dsimp only
      rw [index_withTree]
      split
      · exact inStep_someInvalid rfl _
      · exact .pure Blocks.meets_nil

mutual

theorem inStep_resolveBlock (hnames : d.NamesAliases) : ∀ block : Block,
    block.problems = [] → block.nesting = [] →
    d.firstScope.InStep tree (d.firstScope.resolveBlock block)
      ((d.firstScope.withTree tree).resolveBlock block) fun middle whole =>
        Blocks.Meets d tree middle.toList whole.toList
  | .paragraph content, _, hnone => by
      rw [resolveBlock, resolveBlock]
      refine (inStep_resolveSpans hnames content (by simpa using hnone)).map
        fun middle whole h => Blocks.meets_of fun out problems hout => ?_
      cases hout with
      | paragraph htext => exact ⟨_, rfl, .paragraph (h _ _ htext)⟩
  | .codeBlock _ _, _, _ | .rule, _, _ | .verbatim _ _, _, _
  | .decoratedHeader _, _, _ => by
      rw [resolveBlock, resolveBlock]
      exact .pure (Blocks.meets_of fun out problems hout => by
        cases hout
        exact ⟨_, rfl, .same⟩)
  | .header header, _, hnone => by
      rw [resolveBlock, resolveBlock]
      refine (inStep_resolveSpans hnames header.content (by simpa using hnone)).bind
        fun middle whole h => ?_
      refine inStep_some
        (inStep_checkAnchor (fun hkeeps => ?_) fun out problems hout => ?_)
      · refine Blocks.meets_of fun out problems hout => ?_
        cases hout with
        | header htext hcheck =>
            obtain rfl := hcheck.eq_of_keepsAnchor hkeeps
            exact ⟨_, rfl, .header (h _ _ htext)⟩
      · cases hout with
        | header htext => exact .header (h _ _ htext)
        | sealed hsealed => cases hsealed
  | .title title, _, hnone => by
      rw [resolveBlock, resolveBlock]
      refine (inStep_resolveSpans hnames title.content (by simpa using hnone)).bind
        fun middle whole h => ?_
      refine inStep_some
        (inStep_checkAnchor (fun hkeeps => ?_) fun out problems hout => ?_)
      · refine Blocks.meets_of fun out problems hout => ?_
        cases hout with
        | title htext hcheck =>
            obtain rfl := hcheck.eq_of_keepsAnchor hkeeps
            exact ⟨_, rfl, .title (h _ _ htext)⟩
      · cases hout with
        | title htext => exact .title (h _ _ htext)
        | sealed hsealed => cases hsealed
  | .sectionOf header content, hclean, hnone => by
      simp at hclean hnone
      rw [resolveBlock, resolveBlock]
      refine (inStep_resolveSpans hnames header.content hnone.1).bind
        fun text text' h => ?_
      refine (inStep_resolveBlocks hnames content hclean.2 hnone.2).bind
        fun middle whole hinner => ?_
      refine inStep_some
        (inStep_checkAnchor (fun hkeeps => ?_) fun out problems hout => ?_)
      · refine Blocks.meets_of fun out problems hout => ?_
        cases hout with
        | sectionOf htext hcontent hcheck =>
            obtain rfl := hcheck.eq_of_keepsAnchor hkeeps
            exact ⟨_, rfl, .sectionOf (h _ _ htext) (hinner _ _ hcontent)⟩
      · cases hout with
        | sectionOf htext hcontent =>
            exact .sectionOf (h _ _ htext) (hinner _ _ hcontent)
        | sealed hsealed => cases hsealed
  | .anchor id, _, _ => by
      rw [resolveBlock, resolveBlock]
      refine inStep_some
        (inStep_checkAnchor (fun hkeeps => ?_) fun out problems hout => ?_)
      · refine Blocks.meets_of fun out problems hout => ?_
        cases hout with
        | anchor hcheck =>
            obtain rfl := hcheck.eq_of_keepsAnchor hkeeps
            exact ⟨_, rfl, .same⟩
      · obtain ⟨rfl, -⟩ := hout.of_isSealed rfl
        exact .same
  | .quoted content, hclean, hnone => by
      simp at hclean hnone
      rw [resolveBlock, resolveBlock]
      refine (inStep_resolveBlocks hnames content hclean hnone).map
        fun middle whole h => Blocks.meets_of fun out problems hout => ?_
      cases hout with
      | quoted hcontent => exact ⟨_, rfl, .quoted (h _ _ hcontent)⟩
  | .citation label id content, hclean, hnone => by
      simp at hclean hnone
      rw [resolveBlock, resolveBlock]
      refine (inStep_resolveBlocks hnames content hclean hnone).bind
        fun middle whole h => ?_
      exact inStep_some (inStep_finishCitation label id h)
  | .footnoteDefinition label content, hclean, hnone => by
      simp at hclean hnone
      rw [resolveBlock, resolveBlock]
      refine inStep_nextFootnote.bind fun _ place hplace => ?_
      subst hplace
      refine (inStep_resolveBlocks hnames content hclean hnone).bind
        fun middle whole h => ?_
      exact inStep_some (inStep_finishFootnote place label h)
  | .footnote id label content, hclean, hnone => by
      simp at hclean hnone
      rw [resolveBlock, resolveBlock]
      refine (inStep_resolveBlocks hnames content hclean hnone).map
        fun middle whole h => Blocks.meets_of fun out problems hout => ?_
      cases hout with
      | footnote hcontent => exact ⟨_, rfl, .footnote (h _ _ hcontent)⟩
  | .linkDefinition definition, _, _ => by
      rw [resolveBlock, resolveBlock]
      exact inStep_resolveDefinition definition
  | .linkAlias indirection, _, _ => by
      rw [resolveBlock, resolveBlock]
      exact inStep_resolveAlias indirection
  | .reference kind source, _, hnone => by
      simp at hnone
      rw [resolveBlock, resolveBlock]
      refine (inStep_resolveReference hnames source kind hnone.1 hnone.2).map
        fun middle whole h outs problems houts => ?_
      obtain ⟨after, hspan, rfl⟩ := houts.of_blockOfSpan
      exact .cons (.reference (h _ _ hspan)) .nil
  | .invalid _ _, hclean, _ => by simp at hclean

theorem inStep_resolveBlocks (hnames : d.NamesAliases) : ∀ blocks : List Block,
    Blocks.problems blocks = [] → Blocks.nesting blocks = [] →
    d.firstScope.InStep tree (d.firstScope.resolveBlocks blocks)
      ((d.firstScope.withTree tree).resolveBlocks blocks) (Blocks.Meets d tree)
  | [], _, _ => .pure Blocks.meets_nil
  | block :: blocks, hclean, hnone => by
      simp only [Blocks.collect_cons, List.append_eq_nil_iff] at hclean hnone
      rw [resolveBlocks, resolveBlocks]
      refine (inStep_resolveBlock hnames block hclean.1 hnone.1).bind
        fun middle whole h => ?_
      exact (inStep_resolveBlocks hnames blocks hclean.2 hnone.2).map
        fun middles wholes hrest => h.append hrest

end

end

/-- Both phases together make of the document what a single pass makes of it
that knows the tree from the start. The blocks are the same except for the
ids of aliases in references that failed, and the same is reported. -/
theorem phases_refine_pass (d : Document) (tree : TreeIndex)
    (hproblems : Blocks.problems d.content = [])
    (hnesting : Blocks.nesting d.content = []) (hnames : d.NamesAliases) :
    Blocks.Matches d.firstScope (d.outlined.pass (some tree)).1.content
        (d.localPhase.1.globalPhase tree).1.content
      ∧ (d.localPhase.2 ++ (d.localPhase.1.globalPhase tree).2).Perm
          (d.outlined.pass (some tree)).2 := by
  have hclean : Blocks.problems d.outlined.content = [] :=
    (Blocks.problems_buildOutline _ _).trans hproblems
  have hnone : Blocks.nesting d.outlined.content = [] :=
    (Blocks.nesting_buildOutline _ _).trans hnesting
  obtain ⟨-, hmeets⟩ := inStep_resolveBlocks hnames d.outlined.content hclean hnone
    {} {} (parallel_start d.firstScope tree)
  obtain ⟨problems, hyields, -⟩ := d.yields_finished tree
  have hmatches : Blocks.Matches d.firstScope (d.outlined.pass (some tree)).1.content
      (d.finished tree).content := hmeets _ _ hyields
  have hsingle : (d.outlined.pass (some tree)).2
      = (Blocks.problems (d.outlined.pass (some tree)).1.content).map
          (Diagnostic.mk d.path) :=
    (d.firstScope.withTree tree).run_reports hclean
  have hreports := d.reports_perm tree hproblems
  rw [← hmatches.problems_eq, ← hsingle] at hreports
  exact ⟨hmatches, hreports⟩

/-- An alias for a name that nothing has, a picture and a citation that is
not declared. -/
def mooring : Document :=
  { path := ⟨["a.md"], none⟩
    config := .initial
    content :=
      [.linkAlias ⟨"quay", "pier"⟩,
        .paragraph
          [.reference (.linkId [.text "quay"] "quay") "[quay]",
            .reference (.imagePath "boat" (.absolute ⟨["boat.png"], none⟩) none)
              "![boat](/boat.png)",
            .reference (.citation "log") "[@log]"]] }

/-- A tree with a picture in it and no documents. -/
def pictures : TreeIndex := ⟨[], [⟨["boat.png"], none⟩]⟩

theorem phases_refine_pass_mooring :
    mooring.localPhase.2 ++ (mooring.localPhase.1.globalPhase pictures).2
        = [⟨⟨["a.md"], none⟩, (Failure.unresolvedCitation "log").problem⟩,
          ⟨⟨["a.md"], none⟩, (Failure.unresolvedLink "pier").problem⟩]
      ∧ (mooring.outlined.pass (some pictures)).2
        = [⟨⟨["a.md"], none⟩, (Failure.unresolvedLink "pier").problem⟩,
          ⟨⟨["a.md"], none⟩, (Failure.unresolvedCitation "log").problem⟩]
      ∧ Blocks.Matches mooring.firstScope
          (mooring.outlined.pass (some pictures)).1.content
          (mooring.localPhase.1.globalPhase pictures).1.content
      ∧ (mooring.localPhase.2 ++ (mooring.localPhase.1.globalPhase pictures).2).Perm
          (mooring.outlined.pass (some pictures)).2 := by
  refine ⟨rfl, rfl, phases_refine_pass mooring pictures rfl rfl fun id hmem => ?_⟩
  have hdeclared : (id, DefinitionEntry.indirection "")
      ∈ [("quay", .indirection "pier")] := hmem
  simp at hdeclared

end Document

end Crosslink
