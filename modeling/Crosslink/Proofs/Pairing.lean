import Crosslink.Proofs.Reporting
import Crosslink.Proofs.Turns

/-!
# Pairing references with definitions

By recursion over the nodes the whole pass keeps the contract that its steps have
(`Scope.meets_resolveBlocks`): it follows a course that begins with all counts at
zero. A course says what was paired with what (`Course.takes`, `Course.finishes`).
So for every scheme the references of a document take its definitions one by one,
whatever stands between them (`Scope.run_pairs`).

A reference to a footnote takes the number that the index has for the definition.
The definition itself gets the number at the place at which the pass comes to it.
These are the same if the pass comes to all definitions of the index, which it does
without invalid blocks (`Blocks.labelsMet_eq`), but not if a definition stands in
an invalid quote or footnote.
-/

namespace Crosslink

namespace Scope

variable {s : Scope} {declarations : List Declaration}

/-! ## Spans -/

mutual

theorem meets_resolveSpan (hindex : s.index = .ofDeclarations declarations) :
    ∀ span : Span,
      s.Meets declarations (s.resolveSpan span) (Span.Met span)
  | .emphasized content => by
      rw [resolveSpan]
      exact (meets_resolveSpans hindex content).map fun _ _ h => .emphasized h
  | .strong content => by
      rw [resolveSpan]
      exact (meets_resolveSpans hindex content).map fun _ _ h => .strong h
  | .link content target title => by
      rw [resolveSpan]
      exact (meets_resolveSpans hindex content).map fun _ _ h => .link h
  | .reference kind source => by
      rw [resolveSpan]
      refine (meets_resolveReference hindex kind source).mono fun out meetings h => ?_
      obtain ⟨kind', inner, hkind, rfl⟩ := h
      exact .reference hkind
  | .text _ | .literal _ | .verbatim _ _ | .image _ _ _ | .citationLink _ _
  | .footnoteLink _ _ | .invalid _ _ => .pure (.same rfl)

/-- The references in the text come first, then the reference itself. -/
theorem meets_resolveReference (hindex : s.index = .ofDeclarations declarations) :
    ∀ (kind : ReferenceKind) (source : String),
      s.Meets declarations (s.resolveReference kind source) fun out meetings =>
        ∃ kind' inner, ReferenceKind.Met kind kind' inner
          ∧ meetings = inner ++ [.reference ⟨kind', source, out⟩]
  | .citation label, source =>
      (meets_resolveCitation label source).mono fun _ _ h =>
        ⟨_, [], .same nofun, h⟩
  | .footnote label, source =>
      (meets_resolveFootnote hindex label source).mono fun _ _ h =>
        ⟨_, [], .same nofun, h⟩
  | .imageId alt id, source => by
      rw [resolveReference]
      exact (meets_resolveId hindex (.image alt) id source).mono fun _ _ h =>
        ⟨_, [], .same nofun, h⟩
  | .imagePath alt path title, source => by
      rw [resolveReference]
      exact (meets_settlePath source rfl).mono fun _ _ h => ⟨_, [], .same nofun, h⟩
  | .linkId content id, source => by
      rw [resolveReference]
      refine (meets_resolveSpans hindex content).bind fun text inner htext => ?_
      refine (meets_resolveId hindex (.link text) id source).mono fun out rest h => ?_
      exact ⟨.linkId text id, inner, .linkId htext, congrArg (inner ++ ·) h⟩
  | .linkPath content path title, source => by
      rw [resolveReference]
      exact (meets_settlePath source rfl).mono fun _ _ h => ⟨_, [], .same nofun, h⟩

theorem meets_resolveSpans (hindex : s.index = .ofDeclarations declarations) :
    ∀ spans : List Span,
      s.Meets declarations (s.resolveSpans spans) (Spans.Met spans)
  | [] => .pure .nil
  | span :: spans => by
      rw [resolveSpans]
      refine (meets_resolveSpan hindex span).bind fun out first hspan => ?_
      exact (meets_resolveSpans hindex spans).map fun _ _ h => .cons hspan h

end

/-! ## Blocks -/

theorem meets_checkAnchor (id : Option String) (block : Block) :
    s.Meets declarations (s.checkAnchor id block) fun out meetings =>
      block.StaysIn out ∧ meetings = [] := by
  have hmoved : Unmoved (s.checkAnchor id block) := by
    unfold checkAnchor
    split
    · exact unmoved_pure _
    · split
      · exact unmoved_invalidBlock _ _
      · exact unmoved_pure _
  exact .of_unmoved hmoved (ensures_checkAnchor id block)
    fun out problems h => ⟨h.ordinary, h.staysIn, rfl⟩

theorem meets_finishCitation (label : String) (id : Option String)
    (content : List Block) :
    s.Meets declarations (s.finishCitation label id content) fun out meetings =>
      (∃ id', (Block.citation label id' content).StaysIn out) ∧ meetings = [] := by
  have hmoved : Unmoved (s.finishCitation label id content) := by
    unfold finishCitation
    split
    · exact unmoved_invalidBlock _ _
    · dsimp only
      split
      · exact unmoved_invalidBlock _ _
      · exact unmoved_pure _
  exact .of_unmoved hmoved (ensures_finishCitation label id content)
    fun out problems h => ⟨h.ordinary, h.staysIn, rfl⟩

theorem meets_resolveAlias (indirection : LinkAlias) :
    s.Meets declarations (s.resolveAlias indirection) fun out meetings =>
      LeavesInvalid (.linkAlias indirection) out ∧ meetings = [] := by
  have hsome : ∀ failure, Unmoved
      (do return some (← s.invalidBlock (.linkAlias indirection) failure)) :=
    fun _ _ => rfl
  have hmoved : Unmoved (s.resolveAlias indirection) := by
    unfold resolveAlias
    dsimp only
    split
    · exact hsome _
    · refine (unmoved_lookUpId indirection.id).bind fun outcome => ?_
      split
      · split
        · exact hsome _
        · exact unmoved_pure _
      · exact unmoved_pure _
  exact .of_unmoved hmoved (ensures_resolveAlias indirection)
    fun out problems h => ⟨h.ordinary, h.leavesInvalid, rfl⟩

/-- An anonymous definition disappears. -/
theorem meets_resolveDefinition (definition : LinkDefinition) :
    s.Meets declarations (s.resolveDefinition definition) fun out meetings =>
      (LeavesInvalid (.linkDefinition definition) out
        ∧ (definition.id = "" → out = none)) ∧ meetings = [] := by
  have hmoved : Unmoved (s.resolveDefinition definition) := by
    unfold resolveDefinition
    split
    · exact unmoved_pure _
    · split
      · exact fun _ => rfl
      · exact unmoved_pure _
  exact .of_unmoved hmoved (ensures_resolveDefinition definition)
    fun out problems h => ⟨h.ordinary, h.leavesInvalid, rfl⟩

theorem meets_finishFootnote (place : Nat) (label : FootnoteLabel)
    (content : List Block) :
    s.Meets declarations (s.finishFootnote place label content) fun out meetings =>
      (∃ problems, s.FinishesFootnote place label content out problems)
        ∧ meetings = [] := by
  have hmoved : Unmoved (s.finishFootnote place label content) := by
    unfold finishFootnote
    split
    · exact unmoved_invalidBlock _ _
    · split
      · exact unmoved_pure _
      · exact unmoved_invalidBlock _ _
  exact .of_unmoved hmoved (ensures_finishFootnote place label content)
    fun out problems h => ⟨h.ordinary, ⟨problems, h⟩, rfl⟩

/-- A footnote definition is met before its content and finished after it. -/
theorem meets_footnoteDefinition {label : FootnoteLabel} {content : List Block}
    (hcontent : s.Meets declarations (s.resolveBlocks content) (Blocks.Met content)) :
    s.Meets declarations (s.resolveBlock (.footnoteDefinition label content))
      (Block.Met (.footnoteDefinition label content)) := by
  intro st hst
  let finish : Pass Block := do
    s.finishFootnote st.footnoteNext label (← s.resolveBlocks content)
  have hfinish : s.Meets declarations finish fun out inner =>
      ∃ content' problems, Blocks.Met content content' inner
        ∧ s.FinishesFootnote st.footnoteNext label content' out problems := by
    refine hcontent.bind fun content' inner hmet => ?_
    refine (meets_finishFootnote st.footnoteNext label content').mono fun out rest h => ?_
    obtain ⟨⟨problems, hout⟩, rfl⟩ := h
    rw [List.append_nil]
    exact ⟨content', problems, hmet, hout⟩
  let met : PassState := { st with footnoteNext := st.footnoteNext + 1 }
  obtain ⟨hlast, inner, hcourse, content', problems, hcontent', hout⟩ :=
    hfinish met ⟨hst.cache, hst.reports⟩
  have hresolve : s.resolveBlock (.footnoteDefinition label content) st
      = (some (finish met).1, (finish met).2) := by
    rw [resolveBlock]
    rfl
  let noted : Noted := ⟨label, content', (finish met).1⟩
  have hdefinition : s.Course declarations st.tally (.definition noted :: inner)
      (finish met).2.tally := .definition hout hcourse
  rw [hresolve]
  exact ⟨hlast, _, hdefinition, .footnoteDefinition hcontent'⟩

mutual

theorem meets_resolveBlock (hindex : s.index = .ofDeclarations declarations) :
    ∀ block : Block,
      s.Meets declarations (s.resolveBlock block) (Block.Met block)
  | .paragraph content => by
      rw [resolveBlock]
      exact (meets_resolveSpans hindex content).map fun _ _ h => .paragraph h
  | .codeBlock _ _ | .rule | .verbatim _ _ | .decoratedHeader _ => by
      rw [resolveBlock]
      exact .pure (.same rfl rfl)
  | .header header => by
      rw [resolveBlock]
      refine (meets_resolveSpans hindex header.content).bind fun text inner htext => ?_
      refine (meets_checkAnchor header.id _).map fun out rest h => ?_
      obtain ⟨hout, rfl⟩ := h
      rw [List.append_nil]
      exact .header htext hout
  | .title title => by
      rw [resolveBlock]
      refine (meets_resolveSpans hindex title.content).bind fun text inner htext => ?_
      refine (meets_checkAnchor title.id _).map fun out rest h => ?_
      obtain ⟨hout, rfl⟩ := h
      rw [List.append_nil]
      exact .title htext hout
  | .sectionOf header content => by
      rw [resolveBlock]
      refine (meets_resolveSpans hindex header.content).bind fun text first htext => ?_
      refine (meets_resolveBlocks hindex content).bind fun content' inner hcontent => ?_
      refine (meets_checkAnchor header.id _).map fun out rest h => ?_
      obtain ⟨hout, rfl⟩ := h
      rw [List.append_nil]
      exact .sectionOf htext hcontent hout
  | .quoted content => by
      rw [resolveBlock]
      exact (meets_resolveBlocks hindex content).map fun _ _ h => .quoted h
  | .anchor id => by
      rw [resolveBlock]
      refine (meets_checkAnchor (some id) (.anchor id)).map fun out meetings h => ?_
      obtain ⟨hout, rfl⟩ := h
      exact .anchor hout
  | .linkDefinition definition => by
      rw [resolveBlock]
      refine (meets_resolveDefinition definition).mono fun out meetings h => ?_
      obtain ⟨⟨hout, hanonymous⟩, rfl⟩ := h
      exact .linkDefinition hout hanonymous
  | .linkAlias indirection => by
      rw [resolveBlock]
      refine (meets_resolveAlias indirection).mono fun out meetings h => ?_
      obtain ⟨hout, rfl⟩ := h
      exact .linkAlias hout
  | .citation label id content => by
      rw [resolveBlock]
      refine (meets_resolveBlocks hindex content).bind fun content' inner hcontent => ?_
      refine (meets_finishCitation label id content').map fun out rest h => ?_
      obtain ⟨⟨id', hout⟩, rfl⟩ := h
      rw [List.append_nil]
      exact .citation hcontent hout
  | .footnoteDefinition label content =>
      meets_footnoteDefinition (meets_resolveBlocks hindex content)
  | .footnote id label content => by
      rw [resolveBlock]
      exact (meets_resolveBlocks hindex content).map fun _ _ h => .footnote h
  | .reference kind source => by
      rw [resolveBlock]
      refine (meets_resolveReference hindex kind source).map fun out meetings h => ?_
      obtain ⟨kind', inner, hkind, rfl⟩ := h
      exact .reference hkind
  | .invalid fallback problem => by
      rw [resolveBlock]
      exact (meets_resolveInside hindex fallback).map fun _ _ h => .invalid h

theorem meets_resolveInside (hindex : s.index = .ofDeclarations declarations) :
    ∀ block : Block,
      s.Meets declarations (s.resolveInside block) (Block.MetInside block)
  | .citation label id content => by
      rw [resolveInside]
      exact (meets_resolveBlocks hindex content).map fun _ _ h => .citation h
  | .footnoteDefinition label content => by
      rw [resolveInside]
      exact (meets_resolveBlocks hindex content).map fun _ _ h => .footnoteDefinition h
  | .header header => by
      rw [resolveInside]
      exact (meets_resolveSpans hindex header.content).map fun _ _ h => .header h
  | .sectionOf header content => by
      rw [resolveInside]
      refine (meets_resolveSpans hindex header.content).bind fun text first htext => ?_
      exact (meets_resolveBlocks hindex content).map fun _ _ h => .sectionOf htext h
  | .title title => by
      rw [resolveInside]
      exact (meets_resolveSpans hindex title.content).map fun _ _ h => .title h
  | .paragraph _ | .codeBlock _ _ | .rule | .verbatim _ _ | .decoratedHeader _
  | .quoted _ | .anchor _ | .linkDefinition _ | .linkAlias _ | .footnote _ _ _
  | .reference _ _ | .invalid _ _ => .pure (.sealed rfl)

theorem meets_resolveBlocks (hindex : s.index = .ofDeclarations declarations) :
    ∀ blocks : List Block,
      s.Meets declarations (s.resolveBlocks blocks) (Blocks.Met blocks)
  | [] => .pure .nil
  | block :: blocks => by
      rw [resolveBlocks]
      refine (meets_resolveBlock hindex block).bind fun out first hblock => ?_
      exact (meets_resolveBlocks hindex blocks).map fun _ _ h => .cons hblock h

end

/-! ## What a course says -/

theorem Course.references_eq {t t' : Tally} {meetings : List Meeting}
    (h : s.Course declarations t meetings t') (scheme : Scheme) :
    t'.references scheme
      = t.references scheme + (meetings.filterMap (Meeting.turn? scheme)).length := by
  induction h with
  | nil => rfl
  | @reference t _ turn _ rest _ _ ih =>
      rw [ih, List.filterMap_cons, Meeting.turn?]
      by_cases hscheme : turn.kind.scheme? = some scheme
      · simp [Tally.refer, hscheme]
        omega
      · simp [Tally.refer, hscheme]
  | definition _ _ ih => exact ih

/-- The references of a scheme take its definitions one by one. -/
theorem Course.takes {t t' : Tally} {meetings : List Meeting} {scheme : Scheme}
    {k : Nat} {turn : Turn} (h : s.Course declarations t meetings t')
    (hk : (meetings.filterMap (Meeting.turn? scheme))[k]? = some turn) :
    ∃ problems, s.Takes turn.kind turn.source
      (scheme.definitions declarations)[t.references scheme + k]? turn.out problems := by
  induction h generalizing k with
  | nil => cases hk
  | @reference t _ met problems rest hserves _ ih =>
      rw [List.filterMap_cons, Meeting.turn?] at hk
      by_cases hscheme : met.kind.scheme? = some scheme
      · simp only [if_pos hscheme] at hk
        cases k with
        | zero =>
            cases hk
            cases hserves with
            | named hnone => cases hnone.symm.trans hscheme
            | positional hown h =>
                obtain rfl := Option.some.inj (hown.symm.trans hscheme)
                exact ⟨problems, h⟩
        | succ k =>
            have hnext : (t.refer met.kind).references scheme + k
                = t.references scheme + (k + 1) := by
              simp [Tally.refer, hscheme]
              omega
            rw [← hnext]
            exact ih hk
      · simp only [if_neg hscheme] at hk
        have hsame : (t.refer met.kind).references scheme = t.references scheme := by
          simp [Tally.refer, hscheme]
        rw [← hsame]
        exact ih hk
  | definition _ _ ih => exact ih hk

/-- The footnote definitions get the numbers one by one. -/
theorem Course.finishes {t t' : Tally} {meetings : List Meeting} {k : Nat}
    {noted : Noted} (h : s.Course declarations t meetings t')
    (hk : (meetings.filterMap Meeting.noted?)[k]? = some noted) :
    ∃ problems, s.FinishesFootnote (t.definitions + k) noted.label noted.content
      noted.out problems := by
  induction h generalizing k with
  | nil => cases hk
  | reference _ _ ih => exact ih hk
  | @definition t _ met problems rest hout _ ih =>
      cases k with
      | zero =>
          cases hk
          exact ⟨problems, hout⟩
      | succ k =>
          have hnext : t.define.definitions + k = t.definitions + (k + 1) := by
            simp only [Tally.define]
            omega
          rw [← hnext]
          exact ih hk

/-! ## Whole passes -/

/-- The scope of a pass over the blocks. -/
def indexing (s : Scope) (blocks : List Block) : Scope :=
  { s with index := .build blocks }

/-- What a pass over the blocks makes of the references that are paired by position
and of the footnote definitions it comes to. -/
structure PairsByPosition (s : Scope) (blocks : List Block) (meetings : List Meeting) :
    Prop where
  /-- The reference at a position in its scheme takes the definition at this
  position, or is invalid if there is none. -/
  paired : ∀ (scheme : Scheme) (k : Nat) (turn : Turn),
    (meetings.filterMap (Meeting.turn? scheme))[k]? = some turn →
      ∃ problems, s.Takes turn.kind turn.source
        (scheme.definitions (Blocks.declarations blocks))[k]? turn.out problems
  /-- Reported as too many are exactly the references left over; definitions left
  over are not. -/
  surplus : ∀ scheme : Scheme, surplusReports scheme (s.run blocks).2
    = (meetings.filterMap (Meeting.turn? scheme)).length
      - (scheme.definitions (Blocks.declarations blocks)).length
  /-- Every report is about an invalid node that the pass makes, and every such node
  is reported. -/
  reported : Interleaved (Blocks.problems blocks)
    ((s.run blocks).2.map Diagnostic.problem) (Blocks.problems (s.run blocks).1)
  /-- The definitions that the pass comes to get the numbers of the index one by
  one. -/
  numbered : ∀ (place : Nat) (noted : Noted),
    (meetings.filterMap Meeting.noted?)[place]? = some noted →
      ∃ problems, s.FinishesFootnote place noted.label noted.content noted.out problems
  /-- If these are the definitions that the index lists, then the definition that a
  reference takes becomes the footnote that the reference leads to. -/
  answered : Blocks.labelsMet blocks
      = (Blocks.declarations blocks).filterMap Declaration.footnote? →
    ∀ (scheme : Scheme) (place : Nat) (label : FootnoteLabel),
      ⟨place, .footnote label⟩ ∈ scheme.definitions (Blocks.declarations blocks) →
        ∃ content footnote,
          (meetings.filterMap Meeting.noted?)[place]?
              = some ⟨label, content, .footnote footnote.id footnote.label content⟩
            ∧ s.index.footnotes.definition place = some footnote

/-- A positional footnote definition has its number in the index. -/
theorem definition_of_mem (hindex : s.index = .ofDeclarations declarations)
    {scheme : Scheme} {place : Nat} {label : FootnoteLabel}
    (h : ⟨place, .footnote label⟩ ∈ scheme.definitions declarations) :
    ∃ footnote, s.index.footnotes.definition place = some footnote := by
  have hscheme : label.scheme? = some scheme := Scheme.scheme?_of_mem h
  obtain ⟨k, hk⟩ := List.mem_iff_getElem?.mp h
  rcases assignedTo_at hindex hscheme k with
    ⟨other, footnote, hplaced, hdefinition, -⟩ | ⟨hplaced, -⟩
  · obtain ⟨rfl, -⟩ := Placed.mk.inj (Option.some.inj (hplaced.symm.trans hk))
    exact ⟨footnote, hdefinition⟩
  · cases hplaced.symm.trans hk

/-- A positional definition is never repeated, so it becomes a footnote. -/
theorem FinishesFootnote.eq_footnote {place : Nat} {label : FootnoteLabel}
    {content : List Block} {out : Block} {problems : List Problem} {scheme : Scheme}
    {footnote : NumberedFootnote}
    (h : s.FinishesFootnote place label content out problems)
    (hscheme : label.scheme? = some scheme)
    (hdefinition : s.index.footnotes.definition place = some footnote) :
    out = .footnote footnote.id footnote.label content := by
  have hfresh : s.repeatedFootnote? label = none := by
    cases label <;> first | rfl | cases hscheme
  cases h with
  | repeated hkey => cases hkey.symm.trans hfresh
  | numbered _ hat =>
      obtain rfl := Option.some.inj (hat.symm.trans hdefinition)
      rfl
  | nameless _ hat => cases hat.symm.trans hdefinition

/-- Where the definitions met are those declared, a positional one becomes the
footnote numbered at its place. -/
theorem Course.answers {t t' : Tally} {meetings : List Meeting}
    (h : s.Course declarations t meetings t') (hstart : t.definitions = 0)
    (hindex : s.index = .ofDeclarations declarations)
    (hlabels : Meeting.labels meetings = declarations.filterMap Declaration.footnote?)
    {scheme : Scheme} {place : Nat} {label : FootnoteLabel}
    (hmem : ⟨place, .footnote label⟩ ∈ scheme.definitions declarations) :
    ∃ content footnote,
      (meetings.filterMap Meeting.noted?)[place]?
          = some ⟨label, content, .footnote footnote.id footnote.label content⟩
        ∧ s.index.footnotes.definition place = some footnote := by
  obtain ⟨footnote, hdefinition⟩ := definition_of_mem hindex hmem
  obtain ⟨k, hplace, hlabel⟩ := Declaration.label_of_placed (List.mem_filter.mp hmem).1
  obtain rfl : place = k := by omega
  rw [← hlabels, List.getElem?_map] at hlabel
  obtain ⟨noted, hnoted, rfl⟩ := Option.map_eq_some_iff.mp hlabel
  obtain ⟨_, hout⟩ := h.finishes hnoted
  rw [hstart, Nat.zero_add] at hout
  have heq := hout.eq_footnote (Scheme.scheme?_of_mem hmem) hdefinition
  refine ⟨noted.content, footnote, ?_, hdefinition⟩
  rw [hnoted, ← heq]

/-- References that are paired by position: in each scheme the references that a pass
comes to take the definitions of the document one by one, and those left over are
invalid. A reference to a footnote leads to the definition that it takes if the pass
comes to the same footnote definitions as the index. -/
theorem run_pairs (s : Scope) (blocks : List Block) :
    ∃ meetings, Blocks.Met blocks ((s.indexing blocks).run blocks).1 meetings
      ∧ (s.indexing blocks).PairsByPosition blocks meetings := by
  have hindex : (s.indexing blocks).index
      = .ofDeclarations (Blocks.declarations blocks) := rfl
  have hstart : (s.indexing blocks).Sound (Blocks.declarations blocks) {} := by
    refine ⟨cacheSound_nil _, fun scheme => ?_⟩
    cases scheme <;> exact (Nat.zero_sub _).symm
  obtain ⟨hend, meetings, hcourse, hmet⟩ := meets_resolveBlocks hindex blocks {} hstart
  have hfrom : ∀ scheme, (PassState.tally {}).references scheme = 0 := by
    intro scheme
    cases scheme <;> rfl
  obtain ⟨problems, hyields, hreports⟩ := (s.indexing blocks).yields_run blocks
  refine ⟨meetings, hmet, ?_, fun scheme => ?_, ?_, fun place noted hnoted => ?_, ?_⟩
  · intro scheme k turn hk
    have htakes := hcourse.takes hk
    rw [hfrom, Nat.zero_add] at htakes
    exact htakes
  · have hcount := hcourse.references_eq scheme
    rw [hfrom, Nat.zero_add] at hcount
    rw [← hcount]
    exact hend.reports scheme
  · rw [hreports, List.map_map]
    exact (List.map_id problems).symm ▸ hyields.interleaved
  · have hout := hcourse.finishes hnoted
    rw [Nat.add_comm] at hout
    exact hout
  · intro hlabels scheme place label hmem
    exact hcourse.answers rfl hindex (hmet.labels_eq.trans hlabels) hmem

def quay : Scope := ⟨⟨["a.md"], none⟩, .initial, .build [], none⟩

/-- A footnote definition in an invalid quote, two numbered ones after it, and a
reference to the first of these. -/
def sternNotes : List Block :=
  [.invalid (.quoted [.footnoteDefinition .autosymbol []]) ⟨.unresolved, "adrift"⟩,
    .footnoteDefinition .autonumber [.paragraph [.text "fore"]],
    .footnoteDefinition .autonumber [.paragraph [.text "aft"]],
    .paragraph [.reference (.footnote .autonumber) "[#]"]]

/-- Each definition gets the number before its own, and the first reference leads to
the second definition. -/
theorem run_sternNotes :
    (quay.indexing sternNotes).run sternNotes
      = ([.invalid (.quoted [.footnoteDefinition .autosymbol []])
            ⟨.unresolved, "adrift"⟩,
          .footnote "__fns-1" "*" [.paragraph [.text "fore"]],
          .footnote "__fnauto-1" "1" [.paragraph [.text "aft"]],
          .paragraph [.footnoteLink "__fnauto-1" "1"]], []) := by
  rfl

end Scope

end Crosslink
