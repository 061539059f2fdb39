import Crosslink.Proofs.Phases

/-!
# Every invalid node is reported once

The problems of the invalid nodes that a pass leaves behind are those it
met and those it reported, put together in document order
(`Blocks.Yields.interleaved`). So a pass over blocks without invalid nodes
reports exactly the invalid nodes it leaves, in their order
(`Scope.run_reports`). The second phase meets the invalid nodes that the
first one made and reports none of them again: both together report every
invalid node of the resolved document once (`DocumentRoot.resolve_reports`).
-/

namespace Crosslink

/-! ## Lists put together -/

/-- `whole` consists of `first` and `second`, each in its own order. -/
inductive Interleaved {α : Type} : (first second whole : List α) → Prop
  | nil : Interleaved [] [] []
  | left {a : α} {first second whole : List α}
      (h : Interleaved first second whole) :
      Interleaved (a :: first) second (a :: whole)
  | right {a : α} {first second whole : List α}
      (h : Interleaved first second whole) :
      Interleaved first (a :: second) (a :: whole)

namespace Interleaved

variable {α : Type} {first second whole first' second' whole' : List α}

theorem append (h : Interleaved first second whole)
    (h' : Interleaved first' second' whole') :
    Interleaved (first ++ first') (second ++ second') (whole ++ whole') := by
  induction h with
  | nil => exact h'
  | left _ ih => exact .left ih
  | right _ ih => exact .right ih

theorem nothing_more (list : List α) : Interleaved list [] list := by
  induction list with
  | nil => exact .nil
  | cons a list ih => exact .left ih

theorem all_new (list : List α) : Interleaved [] list list := by
  induction list with
  | nil => exact .nil
  | cons a list ih => exact .right ih

/-- What stood there, then something new. -/
theorem append_new (h : Interleaved first second whole) (new : List α) :
    Interleaved first (second ++ new) (whole ++ new) := by
  have h' := h.append (all_new new)
  rw [List.append_nil] at h'
  exact h'

theorem perm (h : Interleaved first second whole) :
    whole.Perm (first ++ second) := by
  induction h with
  | nil => exact .nil
  | left _ ih => exact .cons _ ih
  | right _ ih => exact (ih.cons _).trans List.perm_middle.symm

theorem eq_of_nil (h : Interleaved [] second whole) : whole = second := by
  generalize hfirst : ([] : List α) = first at h
  induction h with
  | nil => rfl
  | left _ _ => cases hfirst
  | right _ ih => rw [ih hfirst]

end Interleaved

/-! ## One reference or declaration -/

@[simp] def Appearance.problems : Appearance → List Problem
  | .link content => Spans.problems content
  | .image _ => []

@[simp] theorem Appearance.problems_byId (shown : Appearance)
    (id source : String) :
    (shown.byId id source).problems = shown.problems := by
  cases shown <;> simp [byId]

@[simp] theorem Appearance.problems_byPath (shown : Appearance)
    (path : WrittenPath) (title : Option String) (source : String) :
    (shown.byPath path title source).problems = shown.problems := by
  cases shown <;> simp [byPath]

@[simp] theorem Appearance.problems_toSpan (shown : Appearance)
    (target : Target) (title : Option String) :
    (shown.toSpan target title).problems = shown.problems := by
  cases shown <;> simp [toSpan]

/-- A resolved reference has the same invalid nodes as a block. -/
@[simp] theorem Scope.problems_blockOfSpan (span : Span) :
    (blockOfSpan span).problems = span.problems := by
  cases span with
  | invalid fallback problem => cases fallback <;> simp [blockOfSpan]
  | _ => simp [blockOfSpan]

namespace Scope

variable {s : Scope} {problems : List Problem}

theorem SettlesPath.problems_eq {shown : Appearance} {path : WrittenPath}
    {title : Option String} {source : String} {out : Span}
    (h : s.SettlesPath shown path title source out problems) :
    out.problems = shown.problems ++ problems := by
  cases h <;> simp

theorem SettlesId.problems_eq {shown : Appearance} {id source : String}
    {outcome : IdOutcome} {out : Span}
    (h : s.SettlesId shown id source outcome out problems) :
    out.problems = shown.problems ++ problems := by
  cases h with
  | path h => exact h.problems_eq
  | _ => simp

theorem ChecksAnchor.problems_eq {id : Option String} {block out : Block}
    (h : s.ChecksAnchor id block out problems) :
    out.problems = block.problems ++ problems := by
  cases h <;> simp

theorem FinishesCitation.problems_eq {label : String} {id : Option String}
    {content : List Block} {out : Block}
    (h : s.FinishesCitation label id content out problems) :
    out.problems = Blocks.problems content ++ problems := by
  cases h <;> simp

theorem FinishesFootnote.problems_eq {place : Nat} {label : FootnoteLabel}
    {content : List Block} {out : Block}
    (h : s.FinishesFootnote place label content out problems) :
    out.problems = Blocks.problems content ++ problems := by
  cases h <;> simp

theorem DropsAlias.problems_eq {indirection : LinkAlias} {out : Option Block}
    (h : s.DropsAlias indirection out problems) :
    Blocks.problems out.toList = problems := by
  cases h <;> rfl

theorem DropsDefinition.problems_eq {definition : LinkDefinition}
    {out : Option Block} (h : s.DropsDefinition definition out problems) :
    Blocks.problems out.toList = problems := by
  cases h <;> rfl

/-- A citation or footnote label, right or wrong, has no text inside. -/
theorem citation_problems {label : String} {out : Span}
    (h : s.citation label = .ok out) : out.problems = [] := by
  unfold citation at h
  split at h
  · cases h
  · split at h
    · cases h; rfl
    · cases h
    · cases h

end Scope

/-! ## Whole passes -/

section

variable {s : Scope}

mutual

theorem Span.Yields.interleaved {before after : Span} {problems : List Problem} :
    Span.Yields s before after problems →
      Interleaved before.problems problems after.problems
  | .text => .nothing_more _
  | .literal => .nothing_more _
  | .emphasized h => by simpa using h.interleaved
  | .strong h => by simpa using h.interleaved
  | .verbatim => .nothing_more _
  | .reference h => by simpa using h.interleaved
  | .link h => by simpa using h.interleaved
  | .image => .nothing_more _
  | .citationLink => .nothing_more _
  | .footnoteLink => .nothing_more _
  | .invalid => .nothing_more _

theorem ReferenceKind.Yields.interleaved {kind : ReferenceKind} {source : String}
    {out : Span} {problems : List Problem} :
    ReferenceKind.Yields s kind source out problems →
      Interleaved kind.problems problems out.problems
  | .citation h => by
      rw [Scope.citation_problems h]
      exact .nil
  | .citationFailed _ => .all_new _
  | .footnote _ => .nil
  | .footnoteFailed _ => .all_new _
  | .imageId _ h => by
      rw [h.problems_eq]
      exact .all_new _
  | .imagePath h => by
      rw [h.problems_eq]
      exact .all_new _
  | .linkId hcontent _ h => by
      rw [h.problems_eq]
      exact hcontent.interleaved.append_new _
  | .linkPath h => by
      rw [h.problems_eq]
      exact (Interleaved.nothing_more _).append_new _

theorem Spans.Yields.interleaved {before after : List Span}
    {problems : List Problem} :
    Spans.Yields s before after problems →
      Interleaved (Spans.problems before) problems (Spans.problems after)
  | .nil => .nil
  | .cons h hrest => by
      simp only [Spans.collect_cons]
      exact h.interleaved.append hrest.interleaved

end

mutual

theorem Block.Yields.interleaved {before : Block} {after : Option Block}
    {problems : List Problem} :
    Block.Yields s before after problems →
      Interleaved before.problems problems (Blocks.problems after.toList)
  | .paragraph h => by simpa using h.interleaved
  | .codeBlock => by simpa using Interleaved.nothing_more _
  | .rule => by simpa using Interleaved.nothing_more _
  | .verbatim => by simpa using Interleaved.nothing_more _
  | .decoratedHeader => by simpa using Interleaved.nothing_more _
  | .header htext h => by
      simpa [h.problems_eq] using htext.interleaved.append_new _
  | .title htext h => by
      simpa [h.problems_eq] using htext.interleaved.append_new _
  | .sectionOf htext hcontent h => by
      simpa [h.problems_eq] using
        htext.interleaved.append (hcontent.interleaved.append_new _)
  | .quoted h => by simpa using h.interleaved
  | .anchor h => by simpa [h.problems_eq] using Interleaved.all_new problems
  | .linkDefinition h => by
      rw [h.problems_eq]
      exact .all_new _
  | .linkAlias h => by
      rw [h.problems_eq]
      exact .all_new _
  | .citation hcontent h => by
      simpa [h.problems_eq] using hcontent.interleaved.append_new _
  | .footnoteDefinition hcontent h => by
      simpa [h.problems_eq] using hcontent.interleaved.append_new _
  | .footnote h => by simpa using h.interleaved
  | .reference h => by simpa using h.interleaved
  | .invalid h => by
      simpa using h.interleaved.append (.nothing_more _)

theorem Block.YieldsInside.interleaved {before after : Block}
    {problems : List Problem} :
    Block.YieldsInside s before after problems →
      Interleaved before.problems problems after.problems
  | .citation h => by simpa using h.interleaved
  | .footnoteDefinition h => by simpa using h.interleaved
  | .header h => by simpa using h.interleaved
  | .sectionOf htext h => by
      simpa using htext.interleaved.append h.interleaved
  | .title h => by simpa using h.interleaved
  | .sealed _ => .nothing_more _

theorem Blocks.Yields.interleaved {before after : List Block}
    {problems : List Problem} :
    Blocks.Yields s before after problems →
      Interleaved (Blocks.problems before) problems (Blocks.problems after)
  | .nil => .nil
  | .cons h hrest => by
      simp only [Blocks.collect_cons, Blocks.collect_append]
      exact h.interleaved.append hrest.interleaved

end

end

/-- A pass reports the invalid nodes it makes, in the order in which it
leaves them. -/
theorem Scope.run_reports (s : Scope) {blocks : List Block}
    (h : Blocks.problems blocks = []) :
    (s.run blocks).2
      = (Blocks.problems (s.run blocks).1).map (Diagnostic.mk s.document) := by
  obtain ⟨problems, hyields, hreports⟩ := s.yields_run blocks
  have hmerged := hyields.interleaved
  rw [h] at hmerged
  rw [hmerged.eq_of_nil, hreports]

/-- Both phases together report the invalid nodes of the resolved document.
The first phase leaves the nodes it reports; the second one keeps these and
adds the ones that it reports itself. -/
theorem Document.reports_perm (d : Document) (tree : TreeIndex)
    (h : Blocks.problems d.content = []) :
    (d.reports tree).Perm
      ((Blocks.problems (d.finished tree).content).map (Diagnostic.mk d.path)) := by
  have hclean : Blocks.problems d.outlined.content = [] :=
    (Blocks.problems_buildOutline _ _).trans h
  have hfirst : d.localPhase.2
      = (Blocks.problems d.settled.content).map (Diagnostic.mk d.path) :=
    d.firstScope.run_reports hclean
  obtain ⟨problems, hyields, hsecond⟩ := d.yields_finished tree
  rw [reports, hfirst, hsecond, ← List.map_append]
  exact (hyields.interleaved.perm.map _).symm

/-- Diagnostics and invalid nodes correspond one to one. The diagnostics of
a resolved tree are those of its documents one after the other, those of a
document are the invalid nodes in it, and those of a single pass come in
the order of the nodes. -/
theorem DocumentRoot.resolve_reports (r : DocumentRoot) (workers : Nat)
    (h : ∀ d ∈ r.documents, Blocks.problems d.content = []) :
    (r.resolve workers).diagnostics
        = (r.documents.map fun d =>
            d.localPhase.2 ++ (d.localPhase.1.globalPhase r.settledIndex).2).flatten
      ∧ (r.resolve workers).root.documents
        = r.documents.map (fun d =>
            (d.localPhase.1.globalPhase r.settledIndex).1)
      ∧ (∀ d ∈ r.documents,
          (d.localPhase.2 ++ (d.localPhase.1.globalPhase r.settledIndex).2).Perm
            ((Blocks.problems
                (d.localPhase.1.globalPhase r.settledIndex).1.content).map
              (Diagnostic.mk d.path)))
      ∧ ∀ (s : Scope) (blocks : List Block), Blocks.problems blocks = [] →
          (s.run blocks).2
            = (Blocks.problems (s.run blocks).1).map (Diagnostic.mk s.document) :=
  ⟨r.diagnostics_resolve workers, r.documents_resolve workers,
    fun d hd => d.reports_perm r.settledIndex (h d hd),
    fun s _ hblocks => s.run_reports hblocks⟩

/-- A cover whose first reference fails in the second phase and whose second
one fails in the first. -/
def twoFailures : DocumentRoot :=
  { cover := some
      { path := ⟨["cover.md"], none⟩
        config := .initial
        content :=
          [.quoted [.paragraph
            [.reference (.imagePath "moss" (.absolute ⟨["moss.png"], none⟩) none)
                "![moss](/moss.png)",
              .reference (.citation "moss") "[@moss]"]]] }
    staticDocuments := []
    tree := ⟨.root, .initial, none, []⟩ }

theorem resolve_reports_twoFailures :
    (twoFailures.resolve 1).diagnostics
        = [⟨⟨["cover.md"], none⟩, (Failure.unresolvedCitation "moss").problem⟩,
          ⟨⟨["cover.md"], none⟩, (Failure.unresolvedPath
            (.absolute ⟨["moss.png"], none⟩)).problem⟩]
      ∧ ∀ d ∈ (twoFailures.resolve 1).root.documents,
          Blocks.problems d.content
            = [(Failure.unresolvedPath (.absolute ⟨["moss.png"], none⟩)).problem,
              (Failure.unresolvedCitation "moss").problem] := by
  have h := twoFailures.resolve_reports 1 fun d hd => by
    obtain rfl := List.mem_singleton.mp hd
    rfl
  refine ⟨h.1, fun d hd => ?_⟩
  rw [h.2.1] at hd
  obtain rfl := List.mem_singleton.mp hd
  rfl

end Crosslink
