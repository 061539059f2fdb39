import Crosslink.Proofs.Anchors
import Crosslink.Proofs.Scan

/-!
# Resolving twice

Once a pass knows the tree, what it leaves is stable: no definition, alias,
footnote definition or reference stands where a pass looks, every citation
has its id, and no anchor or citation is repeated among those that count
(`Blocks.Yields.stable`). A further pass whose index holds no more than the
index of the first one changes nothing there and reports nothing
(`Blocks.Stable.eq`). A resolved document is its own outline, so the same
holds of both phases of a second resolution
(`DocumentRoot.resolve_resolve`). The text of a reference is what a pass may
leave half done, hence the condition there.
-/

namespace Crosslink

/-! ## What a pass leaves as it is -/

mutual

/-- A pass in the scope changes nothing in the block. -/
def Block.Stable (s : Scope) : Block → Prop
  | .paragraph content => Spans.pending content = []
  | .header header =>
    s.KeepsAnchor header.id ∧ Spans.pending header.content = []
  | .title title => s.KeepsAnchor title.id ∧ Spans.pending title.content = []
  | .sectionOf header content =>
    s.KeepsAnchor header.id ∧ Spans.pending header.content = []
      ∧ Blocks.Stable s content
  | .anchor id => s.KeepsAnchor (some id)
  | .quoted content => Blocks.Stable s content
  | .citation label id content =>
    label ≠ "" ∧ s.index.citations.isDuplicate label = false
      ∧ id = some ("__cit-" ++ label) ∧ Blocks.Stable s content
  | .footnote _ _ content => Blocks.Stable s content
  | .invalid fallback _ => fallback.StableInside s
  | .codeBlock _ _ => True
  | .rule => True
  | .verbatim _ _ => True
  | .decoratedHeader _ => True
  | .linkDefinition _ => False
  | .linkAlias _ => False
  | .footnoteDefinition _ _ => False
  | .reference _ _ => False

/-- A pass changes nothing in the fallback of an invalid block. -/
def Block.StableInside (s : Scope) : Block → Prop
  | .citation _ _ content => Blocks.Stable s content
  | .footnoteDefinition _ content => Blocks.Stable s content
  | .header header => Spans.pending header.content = []
  | .sectionOf header content =>
    Spans.pending header.content = [] ∧ Blocks.Stable s content
  | .title title => Spans.pending title.content = []
  | _ => True

def Blocks.Stable (s : Scope) : List Block → Prop
  | [] => True
  | block :: blocks => block.Stable s ∧ Blocks.Stable s blocks

end

theorem Blocks.stable_append {s : Scope} {first second : List Block} :
    Blocks.Stable s (first ++ second)
      ↔ Blocks.Stable s first ∧ Blocks.Stable s second := by
  induction first with
  | nil => simp [Blocks.Stable]
  | cons block first ih => simp [Blocks.Stable, ih, and_assoc]

section

variable {s : Scope}

theorem Block.StableInside.of_isSealed {block : Block}
    (h : block.isSealed = true) : block.StableInside s := by
  cases block <;> simp_all [Block.isSealed, Block.StableInside]

/-- A checked anchor that is not repeated stays and is not reported. -/
theorem Scope.ChecksAnchor.eq_of_stable {id : Option String}
    {block out : Block} {problems : List Problem}
    (h : s.ChecksAnchor id block out problems) (hkeeps : s.KeepsAnchor id) :
    out = block ∧ problems = [] := by
  cases h with
  | kept _ => exact ⟨rfl, rfl⟩
  | repeated hid hdup =>
      rw [hkeeps _ hid] at hdup
      cases hdup

mutual

theorem Block.Stable.eq {before : Block} {after : Option Block}
    {problems : List Problem} :
    Block.Yields s before after problems → before.Stable s →
      after = some before ∧ problems = []
  | .paragraph h, hstable => by
      obtain ⟨rfl, rfl⟩ := h.eq_of_pending_eq_nil hstable
      exact ⟨rfl, rfl⟩
  | .codeBlock, _ | .rule, _ | .verbatim, _ | .decoratedHeader, _ => ⟨rfl, rfl⟩
  | .header htext h, hstable => by
      obtain ⟨rfl, rfl⟩ := htext.eq_of_pending_eq_nil hstable.2
      obtain ⟨rfl, rfl⟩ := h.eq_of_stable hstable.1
      exact ⟨rfl, rfl⟩
  | .title htext h, hstable => by
      obtain ⟨rfl, rfl⟩ := htext.eq_of_pending_eq_nil hstable.2
      obtain ⟨rfl, rfl⟩ := h.eq_of_stable hstable.1
      exact ⟨rfl, rfl⟩
  | .sectionOf htext hcontent h, hstable => by
      obtain ⟨hkeeps, hpending, hinner⟩ := hstable
      obtain ⟨rfl, rfl⟩ := htext.eq_of_pending_eq_nil hpending
      obtain ⟨rfl, rfl⟩ := Blocks.Stable.eq hcontent hinner
      obtain ⟨rfl, rfl⟩ := h.eq_of_stable hkeeps
      exact ⟨rfl, rfl⟩
  | .quoted h, hstable => by
      obtain ⟨rfl, rfl⟩ := Blocks.Stable.eq h hstable
      exact ⟨rfl, rfl⟩
  | .anchor h, hstable => by
      obtain ⟨rfl, rfl⟩ := h.eq_of_stable hstable
      exact ⟨rfl, rfl⟩
  | .citation hcontent h, hstable => by
      obtain ⟨hname, hunique, rfl, hinner⟩ := hstable
      obtain ⟨rfl, rfl⟩ := Blocks.Stable.eq hcontent hinner
      cases h with
      | nameless hempty => exact absurd hempty hname
      | repeated _ hdup => rw [hunique] at hdup; cases hdup
      | kept _ _ => exact ⟨rfl, rfl⟩
  | .footnote h, hstable => by
      obtain ⟨rfl, rfl⟩ := Blocks.Stable.eq h hstable
      exact ⟨rfl, rfl⟩
  | .invalid h, hstable => by
      obtain ⟨rfl, rfl⟩ := Block.StableInside.eq h hstable
      exact ⟨rfl, rfl⟩
  | .linkDefinition _, hstable | .linkAlias _, hstable
  | .footnoteDefinition _ _, hstable | .reference _, hstable => hstable.elim

theorem Block.StableInside.eq {before after : Block} {problems : List Problem} :
    Block.YieldsInside s before after problems → before.StableInside s →
      after = before ∧ problems = []
  | .citation h, hstable => by
      obtain ⟨rfl, rfl⟩ := Blocks.Stable.eq h hstable
      exact ⟨rfl, rfl⟩
  | .footnoteDefinition h, hstable => by
      obtain ⟨rfl, rfl⟩ := Blocks.Stable.eq h hstable
      exact ⟨rfl, rfl⟩
  | .header h, hstable => by
      obtain ⟨rfl, rfl⟩ := h.eq_of_pending_eq_nil hstable
      exact ⟨rfl, rfl⟩
  | .sectionOf htext h, hstable => by
      obtain ⟨rfl, rfl⟩ := htext.eq_of_pending_eq_nil hstable.1
      obtain ⟨rfl, rfl⟩ := Blocks.Stable.eq h hstable.2
      exact ⟨rfl, rfl⟩
  | .title h, hstable => by
      obtain ⟨rfl, rfl⟩ := h.eq_of_pending_eq_nil hstable
      exact ⟨rfl, rfl⟩
  | .sealed _, _ => ⟨rfl, rfl⟩

/-- A pass leaves stable blocks as they are and reports nothing. -/
theorem Blocks.Stable.eq {before after : List Block} {problems : List Problem} :
    Blocks.Yields s before after problems → Blocks.Stable s before →
      after = before ∧ problems = []
  | .nil, _ => ⟨rfl, rfl⟩
  | .cons h hrest, hstable => by
      obtain ⟨rfl, rfl⟩ := Block.Stable.eq h hstable.1
      obtain ⟨rfl, rfl⟩ := Blocks.Stable.eq hrest hstable.2
      exact ⟨rfl, rfl⟩

end

/-! ## What a pass that knows the tree leaves -/

variable {s' : Scope} {tree : TreeIndex}

/-- A checked anchor is stable later on if what is around it is. -/
theorem Scope.ChecksAnchor.stable {id : Option String} {block out : Block}
    {problems : List Problem} (h : s.ChecksAnchor id block out problems)
    (hprecedes : s.Precedes s') (hkept : s'.KeepsAnchor id → block.Stable s')
    (hinside : block.StableInside s') : Blocks.Stable s' [out] := by
  refine ⟨?_, trivial⟩
  cases h with
  | kept hunique =>
      exact hkept fun i hi => hprecedes.anchors.not_isDuplicate (hunique i hi)
  | repeated _ _ => exact hinside

/-- With the tree known, a reference that stands as a block becomes a
paragraph or invalid. -/
theorem Scope.stable_blockOfSpan {span : Span} (hpending : span.pending = []) :
    Blocks.Stable s [blockOfSpan span] := by
  have hparagraph : (Block.paragraph [span]).Stable s := by
    simpa [Block.Stable] using hpending
  refine ⟨?_, trivial⟩
  cases span with
  | reference kind source => simp at hpending
  | invalid fallback problem =>
      cases fallback <;> simp [blockOfSpan, Block.Stable, Block.StableInside]
  | _ => exact hparagraph

mutual

theorem Block.Yields.stable {before : Block} {after : Option Block}
    {problems : List Problem} (htree : s.tree = some tree)
    (hprecedes : s.Precedes s') :
    Block.Yields s before after problems → before.nesting = [] →
      Blocks.Stable s' after.toList
  | .paragraph h, hnone =>
      ⟨h.pending_of_nesting htree (by simpa using hnone), trivial⟩
  | .codeBlock, _ | .rule, _ | .verbatim, _ | .decoratedHeader, _ =>
      ⟨trivial, trivial⟩
  | .header htext h, hnone => by
      have hpending := htext.pending_of_nesting htree (by simpa using hnone)
      exact h.stable hprecedes (fun hid => ⟨hid, hpending⟩) hpending
  | .title htext h, hnone => by
      have hpending := htext.pending_of_nesting htree (by simpa using hnone)
      exact h.stable hprecedes (fun hid => ⟨hid, hpending⟩) hpending
  | .sectionOf htext hcontent h, hnone => by
      simp at hnone
      have hpending := htext.pending_of_nesting htree hnone.1
      have hinner := hcontent.stable htree hprecedes hnone.2
      exact h.stable hprecedes (fun hid => ⟨hid, hpending, hinner⟩)
        ⟨hpending, hinner⟩
  | .quoted h, hnone =>
      ⟨h.stable htree hprecedes (by simpa using hnone), trivial⟩
  | .anchor h, _ => h.stable hprecedes id trivial
  | .linkDefinition h, _ => by
      cases h with
      | repeated _ _ _ => exact ⟨trivial, trivial⟩
      | external _ => exact trivial
      | internal _ _ => exact trivial
  | .linkAlias h, _ => by
      cases h with
      | repeated _ => exact ⟨trivial, trivial⟩
      | looping _ _ _ => exact ⟨trivial, trivial⟩
      | dropped _ _ _ => exact trivial
  | .citation hcontent h, hnone => by
      have hinner := hcontent.stable htree hprecedes (by simpa using hnone)
      cases h with
      | nameless _ => exact ⟨hinner, trivial⟩
      | repeated _ _ => exact ⟨hinner, trivial⟩
      | kept hname hunique =>
          have hunique' := hprecedes.citations.not_isDuplicate hunique
          exact ⟨⟨hname, hunique', rfl, hinner⟩, trivial⟩
  | .footnoteDefinition hcontent h, hnone => by
      have hinner := hcontent.stable htree hprecedes (by simpa using hnone)
      cases h <;> exact ⟨hinner, trivial⟩
  | .footnote h, hnone =>
      ⟨h.stable htree hprecedes (by simpa using hnone), trivial⟩
  | .reference h, hnone => by
      have hclears := Spans.Yields.pending_of_nesting htree
        (.cons (.reference h) .nil) (by simpa using hnone)
      exact Scope.stable_blockOfSpan (by simpa using hclears)
  | .invalid h, hnone =>
      ⟨h.stable htree hprecedes (by simpa using hnone), trivial⟩

theorem Block.YieldsInside.stable {before after : Block}
    {problems : List Problem} (htree : s.tree = some tree)
    (hprecedes : s.Precedes s') :
    Block.YieldsInside s before after problems → before.nesting = [] →
      after.StableInside s'
  | .citation h, hnone => h.stable htree hprecedes (by simpa using hnone)
  | .footnoteDefinition h, hnone =>
      h.stable htree hprecedes (by simpa using hnone)
  | .header h, hnone => h.pending_of_nesting htree (by simpa using hnone)
  | .sectionOf htext h, hnone => by
      simp at hnone
      exact ⟨htext.pending_of_nesting htree hnone.1,
        h.stable htree hprecedes hnone.2⟩
  | .title h, hnone => h.pending_of_nesting htree (by simpa using hnone)
  | .sealed hsealed, _ => .of_isSealed hsealed

/-- What a pass leaves once it knows the tree is stable for every pass whose
index holds no more. -/
theorem Blocks.Yields.stable {before after : List Block}
    {problems : List Problem} (htree : s.tree = some tree)
    (hprecedes : s.Precedes s') :
    Blocks.Yields s before after problems → Blocks.nesting before = [] →
      Blocks.Stable s' after
  | .nil, _ => trivial
  | .cons h hrest, hnone => by
      simp only [Blocks.collect_cons, List.append_eq_nil_iff] at hnone
      exact Blocks.stable_append.mpr ⟨h.stable htree hprecedes hnone.1,
        hrest.stable htree hprecedes hnone.2⟩

end

/-! ## Headers at the top level -/

theorem Scope.ChecksAnchor.not_opensSection {id : Option String}
    {block out : Block} {problems : List Problem}
    (h : s.ChecksAnchor id block out problems)
    (hblock : block.opensSection = false) : out.opensSection = false := by
  cases h with
  | kept _ => exact hblock
  | repeated _ _ => rfl

/-- A pass makes no header. -/
theorem Block.Yields.not_opensSection {before : Block} {after : Option Block}
    {problems : List Problem} (h : Block.Yields s before after problems)
    (hplain : before.opensSection = false) :
    ∀ block ∈ after.toList, block.opensSection = false := by
  have hone : ∀ {out : Block}, out.opensSection = false →
      ∀ block ∈ (some out).toList, block.opensSection = false :=
    fun hout => List.forall_mem_singleton.mpr hout
  cases h with
  | header _ _ => cases hplain
  | decoratedHeader => cases hplain
  | title _ hcheck => exact hone (hcheck.not_opensSection rfl)
  | sectionOf _ _ hcheck => exact hone (hcheck.not_opensSection rfl)
  | anchor hcheck => exact hone (hcheck.not_opensSection rfl)
  | linkDefinition hdrop => cases hdrop <;> simp [Block.opensSection]
  | linkAlias hdrop => cases hdrop <;> simp [Block.opensSection]
  | citation _ hfinish => cases hfinish <;> exact hone rfl
  | footnoteDefinition _ hfinish => cases hfinish <;> exact hone rfl
  | @reference _ _ span _ _ =>
      refine hone ?_
      cases span with
      | invalid fallback problem => cases fallback <;> rfl
      | _ => rfl
  | _ => exact hone rfl

theorem Blocks.Yields.not_opensSection {before after : List Block}
    {problems : List Problem} (h : Blocks.Yields s before after problems)
    (hplain : ∀ block ∈ before, block.opensSection = false) :
    ∀ block ∈ after, block.opensSection = false := by
  induction before generalizing after problems with
  | nil =>
      cases h
      exact hplain
  | cons head before ih =>
      obtain ⟨hhead, hbefore⟩ := List.forall_mem_cons.mp hplain
      cases h with
      | cons hblock hrest =>
          exact List.forall_mem_append.mpr
            ⟨hblock.not_opensSection hhead, ih hrest hbefore⟩

end

/-! ## A second resolution -/

namespace Document

variable {d : Document} (tree : TreeIndex)

/-- Neither outlining nor a pass changes anything in the document, and
nothing is reported. -/
def Final (d : Document) : Prop :=
  d.outlined = d ∧ ∀ tree : Option TreeIndex, d.pass tree = (d, [])

theorem Final.settled_eq (h : d.Final) : d.settled = d := by
  rw [settled, localPhase, h.1, h.2]

theorem Final.finished_eq (h : d.Final) : d.finished tree = d := by
  rw [finished, h.settled_eq, globalPhase, h.2]

theorem Final.reports_eq (h : d.Final) : d.reports tree = [] := by
  rw [reports, h.settled_eq, localPhase, h.1, globalPhase, h.2, h.2]
  rfl

theorem pass_of_stable {tree : Option TreeIndex}
    (h : Blocks.Stable ⟨d.path, d.config, .build d.content, tree⟩ d.content) :
    d.pass tree = (d, []) := by
  let s : Scope := ⟨d.path, d.config, .build d.content, tree⟩
  obtain ⟨problems, hyields, hreports⟩ := s.yields_run d.content
  obtain ⟨hcontent, rfl⟩ := Blocks.Stable.eq hyields h
  have hrun : s.run d.content = (d.content, []) := Prod.ext hcontent hreports
  show ({ d with content := (s.run d.content).1 }, (s.run d.content).2) = (d, [])
  rw [hrun]

theorem outlined_finished (d : Document) (tree : TreeIndex) :
    (d.finished tree).outlined = d.finished tree := by
  obtain ⟨_, hfirst, -⟩ := d.yields_settled
  obtain ⟨_, hsecond, -⟩ := d.yields_finished tree
  have hplain := hsecond.not_opensSection (hfirst.not_opensSection
    (Blocks.not_opensSection_buildOutline _ _))
  have hcontent := Blocks.buildOutline_eq_self
    (d.finished tree).config.firstHeaderAsTitle hplain
  exact congrArg (fun content => { d.finished tree with content := content }) hcontent

/-- A resolved document is final, unless references stood in the text of
other references. -/
theorem final_finished (h : Blocks.nesting d.content = []) :
    (d.finished tree).Final := by
  refine ⟨d.outlined_finished tree, fun again => pass_of_stable ?_⟩
  obtain ⟨_, hfirst, -⟩ := d.yields_settled
  obtain ⟨_, hsecond, -⟩ := d.yields_finished tree
  have houtline : Blocks.nesting d.outlined.content = [] :=
    (Blocks.nesting_buildOutline _ _).trans h
  have hdeclared := hsecond.declarations_sublist
  have hprecedes : (d.secondScope tree).Precedes
      ⟨d.path, d.config, .build (d.finished tree).content, again⟩ :=
    ⟨(hdeclared.filterMap Declaration.anchor?).map _,
      (hdeclared.filterMap Declaration.citation?).map _⟩
  exact hsecond.stable rfl hprecedes (hfirst.nesting_eq_nil houtline)

end Document

namespace DocumentRoot

/-- A root all of whose documents are final is its own resolution. -/
theorem resolve_of_final {r : DocumentRoot} (h : ∀ d ∈ r.documents, d.Final)
    (workers : Nat) : r.resolve workers = ⟨[], r⟩ := by
  have hsettled : r.settled = r := by
    rw [settled, List.map_congr_left fun d hd => (h d hd).settled_eq,
      List.map_id', attach_documents]
  have hfinished : r.documents.map (fun d => d.finished r.settledIndex)
      = r.documents := by
    rw [List.map_congr_left fun d hd => (h d hd).finished_eq _, List.map_id']
  have hreports : (r.documents.map fun d => d.reports r.settledIndex).flatten
      = [] := by
    refine List.flatten_eq_nil_iff.mpr fun reports hmem => ?_
    obtain ⟨d, hd, rfl⟩ := List.mem_map.mp hmem
    exact (h d hd).reports_eq _
  rw [resolve_eq, hsettled, hfinished, hreports, attach_documents]

/-- Resolving a root whose references have no references in their text, as
every scanned root, is the same as resolving it twice. -/
theorem resolve_resolve (r : DocumentRoot) :
    (∀ place tree, scan place tree = .ok r → r.Unnested)
      ∧ (r.Unnested → ∀ workers again,
          (r.resolve workers).root.resolve again
            = ⟨[], (r.resolve workers).root⟩) := by
  refine ⟨fun _ _ hscan => unnested_of_scan hscan,
    fun hunnested workers again => resolve_of_final (fun d hd => ?_) again⟩
  rw [documents_resolve] at hd
  obtain ⟨before, hbefore, rfl⟩ := List.mem_map.mp hd
  exact Document.final_finished _ (hunnested before hbefore)

/-- The root of a directory with one file, which has a heading, a link to it
and a link to nothing. -/
def chart : DocumentRoot :=
  { cover := none
    staticDocuments := []
    tree := ⟨.root, .initial, none,
      [.document
        { path := ⟨["a.md"], none⟩
          config := .initial
          content := Markdown.parse "# Ebb\n\n[*low*][ebb], [shoal][]\n" }]⟩ }

theorem resolve_resolve_chart :
    scan "chart" (some (.directory
        [("a.md", .text "# Ebb\n\n[*low*][ebb], [shoal][]\n")])) = .ok chart
      ∧ (chart.resolve 2).diagnostics
        = [⟨⟨["a.md"], none⟩, (Failure.unresolvedLink "shoal").problem⟩]
      ∧ (chart.resolve 2).root.resolve 3 = ⟨[], (chart.resolve 2).root⟩ := by
  have hscan : scan "chart" (some (.directory
      [("a.md", .text "# Ebb\n\n[*low*][ebb], [shoal][]\n")])) = .ok chart := by
    rfl
  refine ⟨hscan, ?_, (resolve_resolve chart).2
    ((resolve_resolve chart).1 _ _ hscan) 2 3⟩
  decide +kernel

end DocumentRoot

end Crosslink
