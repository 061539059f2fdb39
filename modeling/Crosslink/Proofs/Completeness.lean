import Crosslink.Command.Basic
import Crosslink.Proofs.Anchors
import Crosslink.Proofs.Pending
import Crosslink.Proofs.Reporting

/-!
# What resolution leaves unresolved

The second pass does not look into decorated headers or into the text of a
reference by path. `Blocks.overlooked` lists what stands there and comes
out of the pass in the open: a decorated header with its references, and
the references in the text of a path that is resolved. That, and nothing
else, is still pending in a resolved document
(`Document.pending_eq_overlooked`). A check that finds no problem means
that every reference was resolved only if that list is empty
(`DocumentRoot.resolve_completes`); `linkedPicture` shows a document for
which it is not.
-/

namespace Crosslink

/-! ## What a pass overlooks -/

namespace Scope

def resolvesPath (s : Scope) (path : WrittenPath) : Bool :=
  match s.resolvePath path with
  | .resolved _ => true
  | _ => false

/-- The id leads to a target, in a document without aliases. -/
def resolvesId (s : Scope) (id : String) : Bool :=
  if id = "" then false
  else
    match s.outcomeOf id with
    | .found (.path path _) => s.resolvesPath path
    | .found _ => true
    | _ => false

end Scope

mutual

/-- The references in a span that a pass neither resolves nor makes
invalid. -/
def Span.overlooked (s : Scope) : Span → List Node
  | .emphasized content => Spans.overlooked s content
  | .strong content => Spans.overlooked s content
  | .link content _ _ => Spans.overlooked s content
  | .reference kind _ => kind.overlooked s
  | _ => []

/-- The references in the text of a reference that come out unresolved.
The text of a link by id is resolved first, that of a link by path is
not. -/
def ReferenceKind.overlooked (s : Scope) : ReferenceKind → List Node
  | .linkId content id =>
    if s.resolvesId id then Spans.overlooked s content else []
  | .linkPath content path _ =>
    if s.resolvesPath path then Spans.pending content else []
  | _ => []

def Spans.overlooked (s : Scope) : List Span → List Node
  | [] => []
  | span :: spans => span.overlooked s ++ Spans.overlooked s spans

end

mutual

def Block.overlooked (s : Scope) : Block → List Node
  | .paragraph content => Spans.overlooked s content
  | .header header => Spans.overlooked s header.content
  | .decoratedHeader header =>
    Spans.pending header.content ++ [.block (.decoratedHeader header)]
  | .title title => Spans.overlooked s title.content
  | .sectionOf header content =>
    Spans.overlooked s header.content ++ Blocks.overlooked s content
  | .quoted content => Blocks.overlooked s content
  | .citation _ _ content => Blocks.overlooked s content
  | .footnote _ _ content => Blocks.overlooked s content
  | .reference kind _ => kind.overlooked s
  | _ => []

def Blocks.overlooked (s : Scope) : List Block → List Node
  | [] => []
  | block :: blocks => block.overlooked s ++ Blocks.overlooked s blocks

end

/-! ## Definitions are gone after the first pass -/

/-- Nothing defines a link in the document. -/
structure Scope.Undefined (s : Scope) : Prop where
  definitions : s.index.linkDefinitions.declared = []
  anonymous : s.index.anonymous = []

namespace Scope

variable {s : Scope}

theorem Undefined.eq_of_answers {id : String} {outcome : IdOutcome}
    (hs : s.Undefined) (h : s.AnswersReference id outcome) :
    outcome = if id = "" then .failed .anonymousExhausted else s.outcomeOf id := by
  unfold AnswersReference at h
  split at h
  · rename_i hid
    rw [if_pos hid]
    rcases h with ⟨defined, hmem, -⟩ | h
    · rw [hs.anonymous] at hmem
      cases hmem
    · exact h
  · rename_i hid
    rw [if_neg hid]
    refine h.of_aliasTarget?_eq_none ?_
    simp [aliasTarget?, Namespace.entry?, Namespace.values, hs.definitions]

variable {tree : TreeIndex} {problems : List Problem}

theorem SettlesPath.pending_eq {shown : Appearance} {path : WrittenPath}
    {title : Option String} {source : String} {out : Span}
    (htree : s.tree = some tree)
    (h : s.SettlesPath shown path title source out problems) :
    out.pending
      = if s.resolvesPath path then Spans.pending shown.text else [] := by
  unfold resolvesPath
  rcases h.cases_of_tree htree with ⟨target, hpath, rfl⟩ | ⟨_, _, hpath, rfl⟩
  · cases shown <;> simp [hpath, Appearance.toSpan, Appearance.text]
  · simp [hpath]

theorem SettlesId.pending_eq {shown : Appearance} {id source : String}
    {outcome : IdOutcome} {out : Span} (hs : s.Undefined)
    (htree : s.tree = some tree) (hanswer : s.AnswersReference id outcome)
    (h : s.SettlesId shown id source outcome out problems) :
    out.pending = if s.resolvesId id then Spans.pending shown.text else [] := by
  have heq := hs.eq_of_answers hanswer
  unfold resolvesId
  split at heq
  · rename_i hid
    subst heq
    cases h
    simp [hid]
  · rename_i hid
    rw [if_neg hid, ← heq]
    cases h with
    | external => cases shown <;> simp [Appearance.toSpan, Appearance.text]
    | target => cases shown <;> simp [Appearance.toSpan, Appearance.text]
    | path h => exact h.pending_eq htree
    | deferred => exact absurd hanswer (AnswersReference.not_deferred htree)
    | missing => simp
    | failed => simp

end Scope

section

variable {s : Scope} {tree : TreeIndex}

mutual

theorem Span.Yields.pending_eq_overlooked {before after : Span}
    {problems : List Problem} (hs : s.Undefined) (htree : s.tree = some tree) :
    Span.Yields s before after problems → after.pending = before.overlooked s
  | .emphasized h => by
      simpa [Span.overlooked] using h.pending_eq_overlooked hs htree
  | .strong h => by
      simpa [Span.overlooked] using h.pending_eq_overlooked hs htree
  | .link h => by
      simpa [Span.overlooked] using h.pending_eq_overlooked hs htree
  | .reference h => h.pending_eq_overlooked hs htree
  | .text | .literal | .verbatim | .image | .citationLink | .footnoteLink
  | .invalid => by simp [Span.overlooked]

theorem ReferenceKind.Yields.pending_eq_overlooked {kind : ReferenceKind}
    {source : String} {out : Span} {problems : List Problem}
    (hs : s.Undefined) (htree : s.tree = some tree) :
    ReferenceKind.Yields s kind source out problems →
      out.pending = kind.overlooked s
  | .citation h => by
      unfold Scope.citation at h
      split at h
      · cases h
      · split at h <;> cases h
        simp [ReferenceKind.overlooked]
  | .citationFailed _ => by simp [ReferenceKind.overlooked]
  | .footnote _ => by simp [ReferenceKind.overlooked]
  | .footnoteFailed _ => by simp [ReferenceKind.overlooked]
  | .imageId hanswer h => by
      rw [h.pending_eq hs htree hanswer]
      simp [ReferenceKind.overlooked, Appearance.text]
  | .imagePath h => by
      rw [h.pending_eq htree]
      simp [ReferenceKind.overlooked, Appearance.text]
  | .linkId hcontent hanswer h => by
      rw [h.pending_eq hs htree hanswer, ReferenceKind.overlooked,
        ← hcontent.pending_eq_overlooked hs htree]
      rfl
  | .linkPath h => by
      rw [h.pending_eq htree]
      rfl

theorem Spans.Yields.pending_eq_overlooked {before after : List Span}
    {problems : List Problem} (hs : s.Undefined) (htree : s.tree = some tree) :
    Spans.Yields s before after problems →
      Spans.pending after = Spans.overlooked s before
  | .nil => rfl
  | .cons h hrest => by
      rw [Spans.overlooked, ← h.pending_eq_overlooked hs htree,
        ← hrest.pending_eq_overlooked hs htree]
      exact Spans.collect_cons _ _ _ _

end

mutual

theorem Block.Yields.pending_eq_overlooked {before : Block}
    {after : Option Block} {problems : List Problem} (hs : s.Undefined)
    (htree : s.tree = some tree) :
    Block.Yields s before after problems → before.Steady s →
      Blocks.pending after.toList = before.overlooked s
  | .paragraph h, _ => by
      simpa [Block.overlooked] using h.pending_eq_overlooked hs htree
  | .codeBlock, _ | .rule, _ | .verbatim, _ | .decoratedHeader, _
  | .invalid _, _ => by simp [Block.overlooked]
  | .header htext h, hsteady => by
      obtain rfl := h.eq_of_keepsAnchor hsteady
      simpa [Block.overlooked] using htext.pending_eq_overlooked hs htree
  | .title htext h, hsteady => by
      obtain rfl := h.eq_of_keepsAnchor hsteady
      simpa [Block.overlooked] using htext.pending_eq_overlooked hs htree
  | .sectionOf htext hcontent h, hsteady => by
      obtain rfl := h.eq_of_keepsAnchor hsteady.1
      have hfirst := htext.pending_eq_overlooked hs htree
      have hinner := hcontent.pending_eq_overlooked hs htree hsteady.2
      simp [Block.overlooked, hfirst, hinner]
  | .quoted h, hsteady => by
      simpa [Block.overlooked] using h.pending_eq_overlooked hs htree hsteady
  | .anchor h, hsteady => by
      obtain rfl := h.eq_of_keepsAnchor hsteady
      simp [Block.overlooked]
  | .linkDefinition h, _ => by cases h <;> simp [Block.overlooked]
  | .linkAlias h, _ => by cases h <;> simp [Block.overlooked]
  | .citation hcontent h, hsteady => by
      obtain ⟨hname, hunique, rfl, hcontent'⟩ := hsteady
      have hinner := hcontent.pending_eq_overlooked hs htree hcontent'
      cases h with
      | nameless h => exact absurd h hname
      | repeated _ hdup => rw [hunique] at hdup; cases hdup
      | kept _ _ => simpa [Block.overlooked] using hinner
  | .footnoteDefinition _ _, hsteady => hsteady.elim
  | .footnote h, hsteady => by
      simpa [Block.overlooked] using h.pending_eq_overlooked hs htree hsteady
  | .reference h, _ => by
      have hblock := Scope.pending_blockOfSpan (h.ne_reference htree)
      simpa [Block.overlooked, hblock] using h.pending_eq_overlooked hs htree

/-- What is pending after a pass that knows the tree is what it
overlooked. -/
theorem Blocks.Yields.pending_eq_overlooked {before after : List Block}
    {problems : List Problem} (hs : s.Undefined) (htree : s.tree = some tree) :
    Blocks.Yields s before after problems → Blocks.Steady s before →
      Blocks.pending after = Blocks.overlooked s before
  | .nil, _ => rfl
  | .cons h hrest, hsteady => by
      rw [Blocks.overlooked, ← h.pending_eq_overlooked hs htree hsteady.1,
        ← hrest.pending_eq_overlooked hs htree hsteady.2]
      exact Blocks.collect_append _ _ _ _

end

end

def Declaration.isDefinition : Declaration → Bool
  | anonymous _ => true
  | definition _ _ => true
  | _ => false

theorem Declaration.not_isDefinition_anchors {id : Option String} :
    ∀ declaration ∈ anchors id, declaration.isDefinition = false := by
  intro declaration h
  obtain ⟨i, -, rfl⟩ := List.mem_map.mp h
  rfl

section

variable {s : Scope}

/-- What a checked anchor declares is its own or inside. -/
theorem Scope.ChecksAnchor.forall_declared {id : Option String}
    {block out : Block} {problems : List Problem} {P : Declaration → Prop}
    (h : s.ChecksAnchor id block out problems)
    (hblock : ∀ declaration ∈ block.declarations, P declaration)
    (hnested : ∀ declaration ∈ block.nestedDeclarations, P declaration) :
    ∀ declaration ∈ Blocks.declarations [out], P declaration := by
  rw [Blocks.declarations_singleton]
  cases h with
  | kept _ => exact hblock
  | repeated _ _ => exact hnested

mutual

theorem Block.Yields.not_isDefinition {before : Block} {after : Option Block}
    {problems : List Problem} :
    Block.Yields s before after problems → before.problems = [] →
      ∀ declaration ∈ Blocks.declarations after.toList,
        declaration.isDefinition = false
  | .paragraph _, _ | .codeBlock, _ | .rule, _ | .verbatim, _
  | .decoratedHeader, _ => by simp [Block.declarations]
  | .header _ h, _ =>
      h.forall_declared Declaration.not_isDefinition_anchors
        (by simp [Block.nestedDeclarations])
  | .title _ h, _ =>
      h.forall_declared Declaration.not_isDefinition_anchors
        (by simp [Block.nestedDeclarations])
  | .sectionOf _ hcontent h, hclean => by
      simp at hclean
      have hinner := hcontent.not_isDefinition hclean.2
      exact h.forall_declared (List.forall_mem_append.mpr
        ⟨Declaration.not_isDefinition_anchors, hinner⟩) hinner
  | .quoted h, hclean => by
      simpa [Block.declarations] using h.not_isDefinition (by simpa using hclean)
  | .anchor h, _ =>
      h.forall_declared (by simp [Block.declarations, Declaration.isDefinition])
        (by simp [Block.nestedDeclarations])
  | .linkDefinition h, _ => by
      cases h <;> simp [Blocks.declarations, Block.declarations,
        Block.nestedDeclarations]
  | .linkAlias h, _ => by
      cases h <;> simp [Blocks.declarations, Block.declarations,
        Block.nestedDeclarations]
  | .citation hcontent h, hclean => by
      have hinner := hcontent.not_isDefinition (by simpa using hclean)
      cases h <;> simpa [Block.declarations, Block.nestedDeclarations,
        Declaration.isDefinition] using hinner
  | .footnoteDefinition hcontent h, hclean => by
      have hinner := hcontent.not_isDefinition (by simpa using hclean)
      cases h <;> simpa [Block.declarations, Block.nestedDeclarations] using hinner
  | .footnote h, hclean => by
      simpa [Block.declarations] using h.not_isDefinition (by simpa using hclean)
  | .reference _, _ => by simp
  | .invalid _, hclean => by simp at hclean

/-- A pass over blocks without invalid nodes leaves no definition. -/
theorem Blocks.Yields.not_isDefinition {before after : List Block}
    {problems : List Problem} :
    Blocks.Yields s before after problems → Blocks.problems before = [] →
      ∀ declaration ∈ Blocks.declarations after, declaration.isDefinition = false
  | .nil, _ => by simp [Blocks.declarations]
  | .cons h hrest, hclean => by
      simp at hclean
      rw [Blocks.declarations_append]
      exact List.forall_mem_append.mpr
        ⟨h.not_isDefinition hclean.1, hrest.not_isDefinition hclean.2⟩

end

end

/-! ## Without invalid nodes nothing is hidden -/

section

variable {α : Type} {f : Node → Option α}

mutual

theorem Span.collect_everywhere : ∀ span : Span, span.problems = [] →
    span.collect f .everywhere = span.collect f .outsideInvalid
  | .emphasized content, h => by
      simp [Spans.collect_everywhere content (by simpa using h)]
  | .strong content, h => by
      simp [Spans.collect_everywhere content (by simpa using h)]
  | .link content _ _, h => by
      simp [Spans.collect_everywhere content (by simpa using h)]
  | .reference kind _, h => by
      simp [ReferenceKind.collect_everywhere kind (by simpa using h)]
  | .invalid _ _, h => by simp at h
  | .text _, _ | .literal _, _ | .verbatim _ _, _ | .image _ _ _, _
  | .citationLink _ _, _ | .footnoteLink _ _, _ => by simp

theorem ReferenceKind.collect_everywhere : ∀ kind : ReferenceKind,
    kind.problems = [] →
      kind.collect f .everywhere = kind.collect f .outsideInvalid
  | .linkId content _, h => Spans.collect_everywhere content h
  | .linkPath content _ _, h => Spans.collect_everywhere content h
  | .citation _, _ | .footnote _, _ | .imageId _ _, _ | .imagePath _ _ _, _ => rfl

theorem Spans.collect_everywhere : ∀ spans : List Span, Spans.problems spans = [] →
    Spans.collect f .everywhere spans = Spans.collect f .outsideInvalid spans
  | [], _ => rfl
  | span :: spans, h => by
      simp at h
      simp [Span.collect_everywhere span h.1, Spans.collect_everywhere spans h.2]

end

mutual

theorem Block.collect_everywhere : ∀ block : Block, block.problems = [] →
    block.collect f .everywhere = block.collect f .outsideInvalid
  | .paragraph content, h => by
      simp [Spans.collect_everywhere content (by simpa using h)]
  | .header header, h => by
      simp [Spans.collect_everywhere header.content (by simpa using h)]
  | .decoratedHeader header, h => by
      simp [Spans.collect_everywhere header.content (by simpa using h)]
  | .title title, h => by
      simp [Spans.collect_everywhere title.content (by simpa using h)]
  | .sectionOf header content, h => by
      simp at h
      simp [Spans.collect_everywhere header.content h.1,
        Blocks.collect_everywhere content h.2]
  | .quoted content, h => by
      simp [Blocks.collect_everywhere content (by simpa using h)]
  | .citation _ _ content, h => by
      simp [Blocks.collect_everywhere content (by simpa using h)]
  | .footnoteDefinition _ content, h => by
      simp [Blocks.collect_everywhere content (by simpa using h)]
  | .footnote _ _ content, h => by
      simp [Blocks.collect_everywhere content (by simpa using h)]
  | .reference kind _, h => by
      simp [ReferenceKind.collect_everywhere kind (by simpa using h)]
  | .invalid _ _, h => by simp at h
  | .codeBlock _ _, _ | .rule, _ | .verbatim _ _, _ | .anchor _, _
  | .linkDefinition _, _ | .linkAlias _, _ => by simp

/-- Where no node is invalid, all nodes are outside invalid ones. -/
theorem Blocks.collect_everywhere : ∀ blocks : List Block,
    Blocks.problems blocks = [] →
      Blocks.collect f .everywhere blocks = Blocks.collect f .outsideInvalid blocks
  | [], _ => rfl
  | block :: blocks, h => by
      simp at h
      simp [Block.collect_everywhere block h.1,
        Blocks.collect_everywhere blocks h.2]

end

end

/-! ## Both phases -/

namespace Document

variable {d : Document} (tree : TreeIndex)

theorem undefined_secondScope (h : Blocks.problems d.content = []) :
    (d.secondScope tree).Undefined := by
  obtain ⟨problems, hyields, -⟩ := d.yields_settled
  have hgone := hyields.not_isDefinition ((Blocks.problems_buildOutline _ _).trans h)
  refine ⟨List.filterMap_eq_nil_iff.mpr ?_, List.filterMap_eq_nil_iff.mpr ?_⟩
  · intro declaration hmem
    have hdeclaration := hgone declaration hmem
    cases declaration with
    | definition id entry => cases hdeclaration
    | _ => rfl
  · intro declaration hmem
    have hdeclaration := hgone declaration hmem
    cases declaration with
    | anonymous defined => cases hdeclaration
    | _ => rfl

/-- What is pending in a resolved document is what the second pass
overlooked. -/
theorem pending_eq_overlooked (h : Blocks.problems d.content = []) :
    Blocks.pending (d.finished tree).content
      = Blocks.overlooked (d.secondScope tree) d.settled.content := by
  obtain ⟨problems, hyields, -⟩ := d.yields_finished tree
  exact hyields.pending_eq_overlooked (undefined_secondScope tree h) rfl
    (d.steady_settled tree h)

end Document

namespace DocumentRoot

theorem diagnostics_of_checked {r : Resolution} (h : r.checked.exitCode = 0) :
    r.diagnostics = [] := by
  unfold Resolution.checked at h
  cases hreports : r.diagnostics with
  | nil => rfl
  | cons diagnostic diagnostics =>
      rw [hreports] at h
      cases h

/-- What stays pending in a resolved tree, outside invalid nodes. In every
tree it is decorated headers and references in running text, and there is
nothing where outlining leaves no decorated header and no reference has
references in its text. In a tree read without invalid nodes it is exactly
what the second pass overlooks, and a check without problems means that
every reference of a document was resolved if nothing was overlooked in
it. -/
theorem resolve_completes (r : DocumentRoot) (workers : Nat) :
    (r.resolve workers).root.documents
        = r.documents.map (fun d => d.finished r.settledIndex)
      ∧ (∀ d ∈ r.documents,
          (∀ node ∈ Blocks.pending (d.finished r.settledIndex).content,
              node.isOverlooked = true)
            ∧ (Blocks.blindSpots d.outlined.content = [] →
                Blocks.pending (d.finished r.settledIndex).content = [])
            ∧ (Blocks.problems d.content = [] →
                Blocks.pending (d.finished r.settledIndex).content
                  = Blocks.overlooked (d.secondScope r.settledIndex)
                      d.settled.content))
      ∧ ((∀ d ∈ r.documents, Blocks.problems d.content = []) →
          (r.resolve workers).checked.exitCode = 0 →
          ∀ d ∈ r.documents,
            Blocks.overlooked (d.secondScope r.settledIndex) d.settled.content = [] →
              Blocks.problems (d.finished r.settledIndex).content = []
                ∧ Blocks.collect Node.pending? .everywhere
                    (d.finished r.settledIndex).content = []) := by
  refine ⟨r.documents_resolve workers, fun d hd => ⟨?_, ?_, ?_⟩, ?_⟩
  · exact d.overlooked_of_pending r.settledIndex
  · exact Document.pending_of_open r.settledIndex
  · exact Document.pending_eq_overlooked r.settledIndex
  · intro hvalid hexit d hd hnone
    have hsilent : d.reports r.settledIndex = [] := by
      have hreports := diagnostics_of_checked hexit
      rw [diagnostics_resolve] at hreports
      exact List.flatten_eq_nil_iff.mp hreports _ (List.mem_map_of_mem hd)
    have hclean : Blocks.problems (d.finished r.settledIndex).content = [] := by
      have hperm := d.reports_perm r.settledIndex (hvalid d hd)
      rw [hsilent] at hperm
      exact List.map_eq_nil_iff.mp hperm.nil_eq.symm
    refine ⟨hclean, ?_⟩
    rw [Blocks.collect_everywhere _ hclean, ← hnone]
    exact Document.pending_eq_overlooked r.settledIndex (hvalid d hd)

/-- A cover with a picture in the text of a link by path, and a document
with the picture alone. -/
def linkedPicture : DocumentRoot :=
  { cover := some
      { path := ⟨["cover.md"], none⟩
        config := .initial
        content :=
          [.paragraph [.reference
            (.linkPath
              [.reference (.imagePath "boat" (.absolute ⟨["boat.png"], none⟩) none)
                "![boat](/boat.png)"]
              (.absolute ⟨["tides.md"], none⟩) none)
            "[![boat](/boat.png)](/tides.md)"]] }
    staticDocuments := [⟨["boat.png"], none⟩]
    tree := ⟨.root, .initial, none,
      [.document
        { path := ⟨["tides.md"], none⟩
          config := .initial
          content :=
            [.paragraph [.reference
              (.imagePath "boat" (.absolute ⟨["boat.png"], none⟩) none)
              "![boat](/boat.png)"]] }]⟩ }

/-- A check of it finds nothing, and yet the picture in the link is left
unresolved, the one alone is not. -/
theorem resolve_completes_linkedPicture :
    (linkedPicture.resolve 2).checked.exitCode = 0
      ∧ (linkedPicture.resolve 2).root.documents.map (fun d => Blocks.pending d.content)
        = [[.span (.reference
            (.imagePath "boat" (.absolute ⟨["boat.png"], none⟩) none)
            "![boat](/boat.png)")], []]
      ∧ Blocks.collect Node.pending? .everywhere
          (linkedPicture.documents[1].finished linkedPicture.settledIndex).content
        = [] := by
  have hall : ∀ P : Document → Prop, P linkedPicture.documents[0] →
      P linkedPicture.documents[1] → ∀ d ∈ linkedPicture.documents, P d :=
    fun P hcover htides => List.forall_mem_cons.mpr
      ⟨hcover, List.forall_mem_singleton.mpr htides⟩
  have hexit : (linkedPicture.resolve 2).checked.exitCode = 0 := by
    rw [Resolution.checked, diagnostics_resolve]
    rfl
  obtain ⟨hdocuments, hpending, hchecked⟩ := resolve_completes linkedPicture 2
  have hcover := (hpending _ (List.getElem_mem (by decide : 0 < 2))).2.2 rfl
  have htides := (hpending _ (List.getElem_mem (by decide : 1 < 2))).2.1 rfl
  refine ⟨hexit, ?_, ?_⟩
  · rw [hdocuments]
    exact List.cons_eq_cons.mpr ⟨hcover, List.cons_eq_cons.mpr ⟨htides, rfl⟩⟩
  · exact (hchecked (hall _ rfl rfl) hexit _
      (List.getElem_mem (by decide : 1 < 2)) rfl).2

end DocumentRoot

end Crosslink
