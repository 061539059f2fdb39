import Crosslink.Proofs.Phases

/-!
# What may stay unresolved

Once the tree is known nothing is put off any more
(`Scope.resolvePath_ne_deferred`, `Scope.AnswersReference.not_deferred`).
Definitions, aliases, footnote definitions and blocks that are references
are gone after the second pass; all that may be left outside invalid nodes
are decorated headers and references in running text
(`Blocks.Yields.overlooked_of_pending`). They are what a pass does not look
into: decorated headers that outlining did not reach, and the text of
references by path. Where there is nothing of that kind, and no reference
in the text of another, nothing is left (`Document.pending_of_open`).
-/

namespace Crosslink

/-! ## With the tree known -/

namespace Scope

variable {s : Scope} {tree : TreeIndex}

theorem resolvePath_ne_deferred (htree : s.tree = some tree)
    (path : WrittenPath) : s.resolvePath path ≠ .deferred := by
  intro h
  unfold resolvePath at h
  split at h
  · cases h
  · rw [htree] at h
    simp only [checkPath] at h
    split at h
    · cases h
    · split at h
      · cases h
      · split at h <;> cases h

theorem Finds.ne_deferred {id last : String} (htree : s.tree = some tree) :
    ¬ s.Finds id (.deferred last) := by
  intro h
  cases h with
  | deferred _ hnone => rw [htree] at hnone; cases hnone

theorem AnswersReference.not_deferred {id last : String}
    (htree : s.tree = some tree) : ¬ s.AnswersReference id (.deferred last) := by
  intro h
  unfold AnswersReference at h
  split at h
  · rcases h with ⟨defined, -, heq⟩ | heq <;> cases heq
  · rcases h.finds with ⟨last', hfinds⟩ | ⟨failure, heq, -⟩
    · exact Finds.ne_deferred htree hfinds
    · cases heq

/-- With the tree known, a path is resolved or makes the reference
invalid. -/
theorem SettlesPath.cases_of_tree {shown : Appearance} {path : WrittenPath}
    {title : Option String} {source : String} {out : Span}
    {problems : List Problem} (htree : s.tree = some tree)
    (h : s.SettlesPath shown path title source out problems) :
    (∃ target, s.resolvePath path = .resolved target
        ∧ out = shown.toSpan target title)
      ∨ ∃ failure fallback, s.resolvePath path = .failed failure
        ∧ out = .invalid fallback failure.problem := by
  cases h with
  | resolved hpath => exact Or.inl ⟨_, hpath, rfl⟩
  | deferred hpath => exact absurd hpath (resolvePath_ne_deferred htree path)
  | failed hpath => exact Or.inr ⟨_, _, hpath, rfl⟩

end Scope

/-! ## What kind of nodes stay -/

/-- The node is of a kind that a pass may leave behind. -/
def Node.isOverlooked : Node → Bool
  | .span (.reference _ _) => true
  | .block (.decoratedHeader _) => true
  | _ => false

mutual

theorem Span.overlooked_of_pending : ∀ span : Span, ∀ node ∈ span.pending,
    node.isOverlooked = true
  | .emphasized content => by simpa using Spans.overlooked_of_pending content
  | .strong content => by simpa using Spans.overlooked_of_pending content
  | .link content _ _ => by simpa using Spans.overlooked_of_pending content
  | .reference kind source => by
      intro node hnode
      simp only [Span.collect_reference, Node.pending?, Option.toList_some,
        List.mem_append, List.mem_singleton] at hnode
      rcases hnode with hnode | rfl
      · exact ReferenceKind.overlooked_of_pending kind node hnode
      · rfl
  | .text _ | .literal _ | .verbatim _ _ | .image _ _ _ | .citationLink _ _
  | .footnoteLink _ _ | .invalid _ _ => by simp

theorem ReferenceKind.overlooked_of_pending : ∀ kind : ReferenceKind,
    ∀ node ∈ kind.pending, node.isOverlooked = true
  | .linkId content _ => Spans.overlooked_of_pending content
  | .linkPath content _ _ => Spans.overlooked_of_pending content
  | .citation _ | .footnote _ | .imageId _ _ | .imagePath _ _ _ => by simp

theorem Spans.overlooked_of_pending : ∀ spans : List Span,
    ∀ node ∈ Spans.pending spans, node.isOverlooked = true
  | [] => by simp
  | span :: spans => by
      intro node hnode
      simp only [Spans.collect_cons, List.mem_append] at hnode
      rcases hnode with hnode | hnode
      · exact Span.overlooked_of_pending span node hnode
      · exact Spans.overlooked_of_pending spans node hnode

end

/-- With the tree known, a reference does not stay one. -/
theorem ReferenceKind.Yields.ne_reference {s : Scope} {tree : TreeIndex}
    {kind : ReferenceKind} {source : String} {out : Span}
    {problems : List Problem} (htree : s.tree = some tree)
    (h : ReferenceKind.Yields s kind source out problems)
    (other : ReferenceKind) (text : String) : out ≠ .reference other text := by
  have hshown : ∀ (shown : Appearance) target title,
      shown.toSpan target title ≠ .reference other text := by
    intro shown target title
    cases shown <;> simp [Appearance.toSpan]
  have hpath : ∀ {shown path title source out problems},
      s.SettlesPath shown path title source out problems →
        out ≠ .reference other text := by
    intro shown path title source out problems h
    rcases h.cases_of_tree htree with ⟨target, -, rfl⟩ | ⟨_, _, -, rfl⟩
    · exact hshown _ _ _
    · simp
  have hid : ∀ {shown id source outcome out problems},
      s.AnswersReference id outcome →
      s.SettlesId shown id source outcome out problems →
        out ≠ .reference other text := by
    intro shown id source outcome out problems hanswer h
    cases h with
    | external => exact hshown _ _ _
    | target => exact hshown _ _ _
    | path h => exact hpath h
    | deferred => exact absurd hanswer (Scope.AnswersReference.not_deferred htree)
    | missing => simp
    | failed => simp
  cases h with
  | citation h =>
      unfold Scope.citation at h
      split at h
      · cases h
      · split at h <;> cases h
        simp
  | citationFailed _ => simp
  | footnote _ => simp
  | footnoteFailed _ => simp
  | imageId hanswer h => exact hid hanswer h
  | imagePath h => exact hpath h
  | linkId _ hanswer h => exact hid hanswer h
  | linkPath h => exact hpath h

/-- A finished reference has the same pending nodes as a block. -/
theorem Scope.pending_blockOfSpan {span : Span}
    (h : ∀ kind source, span ≠ .reference kind source) :
    (blockOfSpan span).pending = span.pending := by
  cases span with
  | reference kind source => exact absurd rfl (h kind source)
  | invalid fallback problem => cases fallback <;> simp [blockOfSpan]
  | _ => simp [blockOfSpan]

section

variable {s : Scope} {tree : TreeIndex}

theorem Scope.ChecksAnchor.forall_pending {id : Option String}
    {block out : Block} {problems : List Problem} {P : Node → Prop}
    (h : s.ChecksAnchor id block out problems)
    (hblock : ∀ node ∈ block.pending, P node) :
    ∀ node ∈ Blocks.pending [out], P node := by
  cases h with
  | kept _ => simpa using hblock
  | repeated _ _ => simp

mutual

theorem Block.Yields.overlooked_of_pending {before : Block}
    {after : Option Block} {problems : List Problem}
    (htree : s.tree = some tree) :
    Block.Yields s before after problems →
      ∀ node ∈ Blocks.pending after.toList, node.isOverlooked = true
  | .paragraph _ => by simpa using Spans.overlooked_of_pending _
  | .codeBlock | .rule | .verbatim => by simp
  | @Block.Yields.decoratedHeader _ header => by
      have htext := Spans.overlooked_of_pending header.content
      simp only [Option.toList_some, Blocks.collect_cons, Blocks.collect_nil,
        List.append_nil, Block.collect_decoratedHeader]
      exact List.forall_mem_append.mpr ⟨htext, by simp [Node.isOverlooked]⟩
  | .header _ h =>
      h.forall_pending (by simpa using Spans.overlooked_of_pending _)
  | .title _ h =>
      h.forall_pending (by simpa using Spans.overlooked_of_pending _)
  | .sectionOf _ hcontent h => by
      refine h.forall_pending ?_
      simp only [Block.collect_sectionOf, Node.pending?, Option.toList_none,
        List.append_nil]
      exact List.forall_mem_append.mpr
        ⟨Spans.overlooked_of_pending _, hcontent.overlooked_of_pending htree⟩
  | .quoted h => by simpa using h.overlooked_of_pending htree
  | .anchor h => h.forall_pending (by simp)
  | .linkDefinition h => by cases h <;> simp
  | .linkAlias h => by cases h <;> simp
  | .citation hcontent h => by
      have hinner := hcontent.overlooked_of_pending htree
      cases h with
      | kept _ _ => simpa using hinner
      | nameless _ => simp
      | repeated _ _ => simp
  | .footnoteDefinition hcontent h => by
      have hinner := hcontent.overlooked_of_pending htree
      cases h with
      | numbered _ _ => simpa using hinner
      | nameless _ _ => simp
      | repeated _ => simp
  | .footnote h => by simpa using h.overlooked_of_pending htree
  | .reference h => by
      have hkind := Scope.pending_blockOfSpan (h.ne_reference htree)
      simpa [hkind] using Span.overlooked_of_pending _
  | .invalid _ => by simp

/-- Outside invalid nodes the second pass leaves at most decorated headers
and references in running text. -/
theorem Blocks.Yields.overlooked_of_pending {before after : List Block}
    {problems : List Problem} (htree : s.tree = some tree) :
    Blocks.Yields s before after problems →
      ∀ node ∈ Blocks.pending after, node.isOverlooked = true
  | .nil => by simp
  | .cons h hrest => by
      simp only [Blocks.collect_append]
      exact List.forall_mem_append.mpr
        ⟨h.overlooked_of_pending htree, hrest.overlooked_of_pending htree⟩

end

end

/-! ## Where nothing stays -/

/-- The node, if a pass may not look at everything inside: a decorated
header, or a reference with references in its text. -/
@[simp] def Node.blindSpot? : Node → Option Node
  | .span (.reference kind source) =>
    if kind.pending = [] then none else some (.span (.reference kind source))
  | .block (.reference kind source) =>
    if kind.pending = [] then none else some (.block (.reference kind source))
  | .block (.decoratedHeader header) => some (.block (.decoratedHeader header))
  | _ => none

/-- The blind spots of a span that are outside invalid nodes. -/
abbrev Span.blindSpots (span : Span) : List Node :=
  span.collect Node.blindSpot? .outsideInvalid

abbrev ReferenceKind.blindSpots (kind : ReferenceKind) : List Node :=
  kind.collect Node.blindSpot? .outsideInvalid

abbrev Spans.blindSpots (spans : List Span) : List Node :=
  Spans.collect Node.blindSpot? .outsideInvalid spans

abbrev Block.blindSpots (block : Block) : List Node :=
  block.collect Node.blindSpot? .outsideInvalid

abbrev Blocks.blindSpots (blocks : List Block) : List Node :=
  Blocks.collect Node.blindSpot? .outsideInvalid blocks

/-- What a link or an image shows, as the text of a reference. -/
def Appearance.text : Appearance → List Span
  | .link content => content
  | .image _ => []

section

variable {s : Scope} {tree : TreeIndex}

mutual

theorem Span.Yields.eq_of_pending_eq_nil {before after : Span}
    {problems : List Problem} :
    Span.Yields s before after problems → before.pending = [] →
      after = before ∧ problems = []
  | .emphasized h, hnone => by
      obtain ⟨rfl, rfl⟩ := h.eq_of_pending_eq_nil (by simpa using hnone)
      exact ⟨rfl, rfl⟩
  | .strong h, hnone => by
      obtain ⟨rfl, rfl⟩ := h.eq_of_pending_eq_nil (by simpa using hnone)
      exact ⟨rfl, rfl⟩
  | .link h, hnone => by
      obtain ⟨rfl, rfl⟩ := h.eq_of_pending_eq_nil (by simpa using hnone)
      exact ⟨rfl, rfl⟩
  | .reference _, hnone => by simp at hnone
  | .text, _ | .literal, _ | .verbatim, _ | .image, _ | .citationLink, _
  | .footnoteLink, _ | .invalid, _ => ⟨rfl, rfl⟩

/-- A pass leaves a text without references as it is. -/
theorem Spans.Yields.eq_of_pending_eq_nil {before after : List Span}
    {problems : List Problem} :
    Spans.Yields s before after problems → Spans.pending before = [] →
      after = before ∧ problems = []
  | .nil, _ => ⟨rfl, rfl⟩
  | .cons h hrest, hnone => by
      simp only [Spans.collect_cons, List.append_eq_nil_iff] at hnone
      obtain ⟨rfl, rfl⟩ := h.eq_of_pending_eq_nil hnone.1
      obtain ⟨rfl, rfl⟩ := hrest.eq_of_pending_eq_nil hnone.2
      exact ⟨rfl, rfl⟩

end

/-- Nothing has to be resolved in what a link or an image shows. -/
def Appearance.Open (shown : Appearance) : Prop :=
  Spans.blindSpots shown.text = [] ∧ Spans.pending shown.text = []

/-- What becomes of a node that a pass sees all of: it stays so, and with
the tree known nothing in it is pending any more. -/
def Scope.Clears (s : Scope) (blindSpots pending : List Node) : Prop :=
  blindSpots = [] ∧ (s.tree ≠ none → pending = [])

theorem Scope.SettlesPath.clears {shown : Appearance} {path : WrittenPath}
    {title : Option String} {source : String} {out : Span}
    {problems : List Problem}
    (h : s.SettlesPath shown path title source out problems)
    (hshown : shown.Open) : s.Clears out.blindSpots out.pending := by
  obtain ⟨hblind, hpending⟩ := hshown
  cases h with
  | resolved _ =>
      cases shown <;>
        simp_all [Appearance.toSpan, Appearance.text, Scope.Clears]
  | deferred hpath =>
      refine ⟨?_, fun htree => ?_⟩
      · cases shown <;> simp_all [Appearance.byPath, Appearance.text]
      · obtain ⟨tree, htree⟩ := Option.ne_none_iff_exists'.mp htree
        exact absurd hpath (resolvePath_ne_deferred htree path)
  | failed _ => exact ⟨by simp, fun _ => by simp⟩

theorem Scope.SettlesId.clears {shown : Appearance} {id source : String}
    {outcome : IdOutcome} {out : Span} {problems : List Problem}
    (h : s.SettlesId shown id source outcome out problems)
    (hanswer : s.AnswersReference id outcome) (hshown : shown.Open) :
    s.Clears out.blindSpots out.pending := by
  have hopen := hshown
  obtain ⟨hblind, hpending⟩ := hshown
  cases h with
  | external =>
      cases shown <;>
        simp_all [Appearance.toSpan, Appearance.text, Scope.Clears]
  | target =>
      cases shown <;>
        simp_all [Appearance.toSpan, Appearance.text, Scope.Clears]
  | path h => exact h.clears hopen
  | deferred =>
      refine ⟨?_, fun htree => ?_⟩
      · cases shown <;> simp_all [Appearance.byId, Appearance.text]
      · obtain ⟨tree, htree⟩ := Option.ne_none_iff_exists'.mp htree
        exact absurd hanswer (AnswersReference.not_deferred htree)
  | missing => exact ⟨by simp, fun _ => by simp⟩
  | failed => exact ⟨by simp, fun _ => by simp⟩

mutual

theorem Span.Yields.clears {before after : Span} {problems : List Problem} :
    Span.Yields s before after problems → before.blindSpots = [] →
      s.Clears after.blindSpots after.pending
  | .emphasized h, hopen => by simpa using h.clears (by simpa using hopen)
  | .strong h, hopen => by simpa using h.clears (by simpa using hopen)
  | .link h, hopen => by simpa using h.clears (by simpa using hopen)
  | .reference h, hopen => by
      simp at hopen
      exact h.clears hopen.1 hopen.2
  | .text, _ | .literal, _ | .verbatim, _ | .image, _ | .citationLink, _
  | .footnoteLink, _ | .invalid, _ => ⟨by simp, fun _ => by simp⟩

theorem ReferenceKind.Yields.clears {kind : ReferenceKind} {source : String}
    {out : Span} {problems : List Problem} :
    ReferenceKind.Yields s kind source out problems → kind.blindSpots = [] →
      kind.pending = [] → s.Clears out.blindSpots out.pending
  | .citation h, _, _ => by
      unfold Scope.citation at h
      split at h
      · cases h
      · split at h <;> cases h
        exact ⟨by simp, fun _ => by simp⟩
  | .citationFailed _, _, _ => ⟨by simp, fun _ => by simp⟩
  | .footnote _, _, _ => ⟨by simp, fun _ => by simp⟩
  | .footnoteFailed _, _, _ => ⟨by simp, fun _ => by simp⟩
  | .imageId hanswer h, _, _ => h.clears hanswer ⟨rfl, rfl⟩
  | .imagePath h, _, _ => h.clears ⟨rfl, rfl⟩
  | .linkId hcontent hanswer h, hblind, hpending => by
      obtain ⟨rfl, -⟩ := hcontent.eq_of_pending_eq_nil hpending
      exact h.clears hanswer ⟨hblind, hpending⟩
  | .linkPath h, hblind, hpending => h.clears ⟨hblind, hpending⟩

theorem Spans.Yields.clears {before after : List Span}
    {problems : List Problem} :
    Spans.Yields s before after problems → Spans.blindSpots before = [] →
      s.Clears (Spans.blindSpots after) (Spans.pending after)
  | .nil, _ => ⟨rfl, fun _ => rfl⟩
  | .cons h hrest, hopen => by
      simp only [Spans.collect_cons, List.append_eq_nil_iff] at hopen
      obtain ⟨hblind, hpending⟩ := h.clears hopen.1
      obtain ⟨hblind', hpending'⟩ := hrest.clears hopen.2
      simp only [Spans.collect_cons, Scope.Clears, List.append_eq_nil_iff]
      exact ⟨⟨hblind, hblind'⟩, fun htree => ⟨hpending htree, hpending' htree⟩⟩

end

theorem Scope.blindSpots_blockOfSpan {span : Span} (h : span.blindSpots = []) :
    (blockOfSpan span).blindSpots = [] := by
  cases span with
  | invalid fallback problem => cases fallback <;> simp [blockOfSpan]
  | reference kind source => simpa [blockOfSpan] using h
  | emphasized content => simpa [blockOfSpan] using h
  | strong content => simpa [blockOfSpan] using h
  | link content target title => simpa [blockOfSpan] using h
  | _ => simp [blockOfSpan]

theorem Scope.ChecksAnchor.clears {id : Option String} {block out : Block}
    {problems : List Problem} (h : s.ChecksAnchor id block out problems)
    (hblock : s.Clears block.blindSpots block.pending) :
    s.Clears (Blocks.blindSpots [out]) (Blocks.pending [out]) := by
  cases h with
  | kept _ => simpa using hblock
  | repeated _ _ => exact ⟨by simp, fun _ => by simp⟩

mutual

theorem Block.Yields.clears {before : Block} {after : Option Block}
    {problems : List Problem} :
    Block.Yields s before after problems → before.blindSpots = [] →
      s.Clears (Blocks.blindSpots after.toList) (Blocks.pending after.toList)
  | .paragraph h, hopen => by simpa using h.clears (by simpa using hopen)
  | .codeBlock, _ | .rule, _ | .verbatim, _ => ⟨by simp, fun _ => by simp⟩
  | .decoratedHeader, hopen => by simp at hopen
  | .header htext h, hopen =>
      h.clears (by simpa using htext.clears (by simpa using hopen))
  | .title htext h, hopen =>
      h.clears (by simpa using htext.clears (by simpa using hopen))
  | .sectionOf htext hcontent h, hopen => by
      simp at hopen
      obtain ⟨hblind, hpending⟩ := htext.clears hopen.1
      obtain ⟨hblind', hpending'⟩ := hcontent.clears hopen.2
      refine h.clears ⟨?_, fun htree => ?_⟩
      · simp [hblind, hblind']
      · simp [hpending htree, hpending' htree]
  | .quoted h, hopen => by simpa using h.clears (by simpa using hopen)
  | .anchor h, _ => h.clears ⟨by simp, fun _ => by simp⟩
  | .linkDefinition h, _ => by
      cases h <;> exact ⟨by simp, fun _ => by simp⟩
  | .linkAlias h, _ => by
      cases h <;> exact ⟨by simp, fun _ => by simp⟩
  | .citation hcontent h, hopen => by
      have hinner := hcontent.clears (by simpa using hopen)
      cases h with
      | kept _ _ => simpa using hinner
      | nameless _ => exact ⟨by simp, fun _ => by simp⟩
      | repeated _ _ => exact ⟨by simp, fun _ => by simp⟩
  | .footnoteDefinition hcontent h, hopen => by
      have hinner := hcontent.clears (by simpa using hopen)
      cases h with
      | numbered _ _ => simpa using hinner
      | nameless _ _ => exact ⟨by simp, fun _ => by simp⟩
      | repeated _ => exact ⟨by simp, fun _ => by simp⟩
  | .footnote h, hopen => by simpa using h.clears (by simpa using hopen)
  | .reference h, hopen => by
      simp at hopen
      obtain ⟨hblind, hpending⟩ := h.clears hopen.1 hopen.2
      refine ⟨by simpa using Scope.blindSpots_blockOfSpan hblind, fun htree => ?_⟩
      obtain ⟨tree, hknown⟩ := Option.ne_none_iff_exists'.mp htree
      simpa [Scope.pending_blockOfSpan (h.ne_reference hknown)] using hpending htree
  | .invalid _, _ => ⟨by simp, fun _ => by simp⟩

/-- A pass leaves no blind spots where there were none, and with the tree
known it leaves nothing to be resolved there. -/
theorem Blocks.Yields.clears {before after : List Block}
    {problems : List Problem} :
    Blocks.Yields s before after problems → Blocks.blindSpots before = [] →
      s.Clears (Blocks.blindSpots after) (Blocks.pending after)
  | .nil, _ => ⟨rfl, fun _ => rfl⟩
  | .cons h hrest, hopen => by
      simp only [Blocks.collect_cons, List.append_eq_nil_iff] at hopen
      obtain ⟨hblind, hpending⟩ := h.clears hopen.1
      obtain ⟨hblind', hpending'⟩ := hrest.clears hopen.2
      simp only [Blocks.collect_append, Scope.Clears, List.append_eq_nil_iff]
      exact ⟨⟨hblind, hblind'⟩, fun htree => ⟨hpending htree, hpending' htree⟩⟩

end

end

/-! ## Both phases -/

namespace Document

variable (d : Document) (tree : TreeIndex)

theorem overlooked_of_pending :
    ∀ node ∈ Blocks.pending (d.finished tree).content, node.isOverlooked = true := by
  obtain ⟨problems, hyields, -⟩ := d.yields_finished tree
  exact hyields.overlooked_of_pending rfl

theorem pending_of_open {d : Document}
    (hopen : Blocks.blindSpots d.outlined.content = []) :
    Blocks.pending (d.finished tree).content = [] := by
  obtain ⟨_, hfirst, -⟩ := d.yields_settled
  obtain ⟨_, hsecond, -⟩ := d.yields_finished tree
  exact (hsecond.clears (hfirst.clears hopen).1).2 (Option.some_ne_none tree)

end Document

end Crosslink
