import Crosslink.Proofs.Index
import Crosslink.Proofs.Landmarks

/-!
# Anchors last

An anchor that some link was justified with is still there in the end. The
first pass keeps every declared anchor that is not repeated
(`Blocks.Yields.keeps_anchor`). What it leaves is `Steady`: no anchor or
citation in it is repeated and no footnote is without its id, so a second
pass changes none of them (`Blocks.Yields.landmarks_eq`).
-/

namespace Crosslink

/-! ## What a further pass leaves alone -/

def Scope.KeepsAnchor (s : Scope) (id : Option String) : Prop :=
  ∀ i, id = some i → s.index.anchors.isDuplicate i = false

mutual

/-- A pass keeps the usable anchors of the block. -/
def Block.Steady (s : Scope) : Block → Prop
  | .header header => s.KeepsAnchor header.id
  | .title title => s.KeepsAnchor title.id
  | .anchor id => s.KeepsAnchor (some id)
  | .sectionOf header content =>
    s.KeepsAnchor header.id ∧ Blocks.Steady s content
  | .citation label id content =>
    label ≠ "" ∧ s.index.citations.isDuplicate label = false
      ∧ id = some ("__cit-" ++ label) ∧ Blocks.Steady s content
  | .footnoteDefinition _ _ => False
  | .footnote _ _ content => Blocks.Steady s content
  | .quoted content => Blocks.Steady s content
  | .invalid fallback _ => fallback.SteadyInside s
  | _ => True

def Block.SteadyInside (s : Scope) : Block → Prop
  | .citation _ _ content => Blocks.Steady s content
  | .footnote _ _ content => Blocks.Steady s content
  | .footnoteDefinition _ content => Blocks.Steady s content
  | .quoted content => Blocks.Steady s content
  | .sectionOf _ content => Blocks.Steady s content
  | _ => True

def Blocks.Steady (s : Scope) : List Block → Prop
  | [] => True
  | block :: blocks => block.Steady s ∧ Blocks.Steady s blocks

end

theorem Blocks.steady_append {s : Scope} {first second : List Block} :
    Blocks.Steady s (first ++ second)
      ↔ Blocks.Steady s first ∧ Blocks.Steady s second := by
  induction first with
  | nil => simp [Blocks.Steady]
  | cons block first ih => simp [Blocks.Steady, ih, and_assoc]

section

variable {s : Scope}

mutual

theorem Block.Steady.usable_of_declared {id : String} : ∀ {block : Block},
    block.Steady s → .anchor id ∈ block.declarations → id ∈ block.usableAnchors
  | .header header, _, hid => by
      simpa [Block.declarations, Declaration.anchors, Block.usableAnchors] using hid
  | .title title, _, hid => by
      simpa [Block.declarations, Declaration.anchors, Block.usableAnchors] using hid
  | .anchor i, _, hid => by
      simpa [Block.declarations, Block.usableAnchors] using hid
  | .sectionOf header content, hsteady, hid => by
      rw [Block.declarations, List.mem_append] at hid
      rw [Block.usableAnchors, List.mem_append]
      rcases hid with hid | hid
      · exact Or.inl (by simpa [Declaration.anchors] using hid)
      · exact Or.inr (Blocks.Steady.usable_of_declared hsteady.2 hid)
  | .citation label i content, hsteady, hid => by
      rw [Block.declarations, List.mem_cons] at hid
      rw [Block.usableAnchors, List.mem_append]
      rcases hid with hid | hid
      · cases hid
      · exact Or.inr (Blocks.Steady.usable_of_declared hsteady.2.2.2 hid)
  | .footnoteDefinition label content, hsteady, _ => hsteady.elim
  | .footnote i label content, hsteady, hid =>
      List.mem_cons_of_mem _ (Blocks.Steady.usable_of_declared hsteady hid)
  | .quoted content, hsteady, hid =>
      Blocks.Steady.usable_of_declared hsteady hid
  | .invalid fallback problem, hsteady, hid =>
      Block.SteadyInside.usable_of_declared hsteady hid
  | .linkDefinition definition, _, hid => by
      rw [Block.declarations, Declaration.ofDefinition, List.mem_singleton] at hid
      split at hid <;> cases hid
  | .linkAlias indirection, _, hid => by
      simp [Block.declarations] at hid
  | .paragraph _, _, hid | .codeBlock _ _, _, hid | .rule, _, hid
  | .verbatim _ _, _, hid | .decoratedHeader _, _, hid
  | .reference _ _, _, hid => by simp [Block.declarations] at hid

theorem Block.SteadyInside.usable_of_declared {id : String} :
    ∀ {block : Block}, block.SteadyInside s →
      .anchor id ∈ block.nestedDeclarations → id ∈ block.nestedAnchors
  | .citation _ _ content, hsteady, hid =>
      Blocks.Steady.usable_of_declared hsteady hid
  | .footnote _ _ content, hsteady, hid =>
      Blocks.Steady.usable_of_declared hsteady hid
  | .footnoteDefinition _ content, hsteady, hid =>
      Blocks.Steady.usable_of_declared hsteady hid
  | .quoted content, hsteady, hid =>
      Blocks.Steady.usable_of_declared hsteady hid
  | .sectionOf _ content, hsteady, hid =>
      Blocks.Steady.usable_of_declared hsteady hid
  | .header _, _, hid | .title _, _, hid | .anchor _, _, hid
  | .linkDefinition _, _, hid | .linkAlias _, _, hid | .invalid _ _, _, hid
  | .paragraph _, _, hid | .codeBlock _ _, _, hid | .rule, _, hid
  | .verbatim _ _, _, hid | .decoratedHeader _, _, hid
  | .reference _ _, _, hid => by simp [Block.nestedDeclarations] at hid

/-- Every anchor that steady blocks declare can be linked to. -/
theorem Blocks.Steady.usable_of_declared {id : String} :
    ∀ {blocks : List Block}, Blocks.Steady s blocks →
      .anchor id ∈ Blocks.declarations blocks → id ∈ Blocks.usableAnchors blocks
  | [], _, hid => by simp [Blocks.declarations] at hid
  | block :: blocks, hsteady, hid => by
      rw [Blocks.declarations, List.mem_append] at hid
      rw [Blocks.usableAnchors, List.mem_append]
      rcases hid with hid | hid
      · exact Or.inl (Block.Steady.usable_of_declared hsteady.1 hid)
      · exact Or.inr (Blocks.Steady.usable_of_declared hsteady.2 hid)

end

/-! ## The first pass -/

theorem Declaration.mem_anchors {id : String} {declared : Option String} :
    anchor id ∈ anchors declared ↔ declared = some id := by
  simp [anchors, eq_comm]

/-- A checked anchor that is not repeated stays. -/
theorem Scope.ChecksAnchor.eq_of_not_duplicate {id : String}
    {declared : Option String} {block out : Block} {problems : List Problem}
    (h : s.ChecksAnchor declared block out problems) (hid : declared = some id)
    (hunique : s.index.anchors.isDuplicate id = false) : out = block := by
  cases h with
  | kept _ => rfl
  | repeated hid' hdup =>
      obtain rfl := Option.some.inj (hid.symm.trans hid')
      rw [hunique] at hdup
      cases hdup

mutual

theorem Block.Yields.keeps_anchor {id : String} {before : Block}
    {after : Option Block} {problems : List Problem}
    (hunique : s.index.anchors.isDuplicate id = false) :
    Block.Yields s before after problems → .anchor id ∈ before.declarations →
      .anchor id ∈ Blocks.declarations after.toList
  | .paragraph _, hid => by simp [Block.declarations] at hid
  | .codeBlock, hid => by simp [Block.declarations] at hid
  | .rule, hid => by simp [Block.declarations] at hid
  | .verbatim, hid => by simp [Block.declarations] at hid
  | .decoratedHeader, hid => by simp [Block.declarations] at hid
  | .header _ h, hid => by
      rw [Block.declarations, Declaration.mem_anchors] at hid
      obtain rfl := h.eq_of_not_duplicate hid hunique
      simpa [Block.declarations, Declaration.mem_anchors] using hid
  | .title _ h, hid => by
      rw [Block.declarations, Declaration.mem_anchors] at hid
      obtain rfl := h.eq_of_not_duplicate hid hunique
      simpa [Block.declarations, Declaration.mem_anchors] using hid
  | .sectionOf _ hcontent h, hid => by
      rw [Block.declarations, List.mem_append, Declaration.mem_anchors] at hid
      rcases hid with hid | hid
      · obtain rfl := h.eq_of_not_duplicate hid hunique
        simp [Block.declarations, Declaration.mem_anchors, hid]
      · have hinner := hcontent.keeps_anchor hunique hid
        cases h with
        | kept _ => simp [Block.declarations, hinner]
        | repeated _ _ =>
            simp [Block.declarations, Block.nestedDeclarations, hinner]
  | .quoted h, hid => by
      simpa [Block.declarations] using h.keeps_anchor hunique hid
  | .anchor h, hid => by
      rw [Block.declarations, List.mem_singleton] at hid
      obtain rfl := h.eq_of_not_duplicate
        (congrArg some (Declaration.anchor.inj hid).symm) hunique
      simpa [Block.declarations] using hid
  | .linkDefinition _, hid => by
      rw [Block.declarations, Declaration.ofDefinition, List.mem_singleton] at hid
      split at hid <;> cases hid
  | .linkAlias _, hid => by simp [Block.declarations] at hid
  | .citation hcontent h, hid => by
      rw [Block.declarations, List.mem_cons] at hid
      rcases hid with hid | hid
      · cases hid
      · have hinner := hcontent.keeps_anchor hunique hid
        cases h <;> simp [Block.declarations, Block.nestedDeclarations, hinner]
  | .footnoteDefinition hcontent h, hid => by
      rw [Block.declarations, List.mem_cons] at hid
      rcases hid with hid | hid
      · cases hid
      · have hinner := hcontent.keeps_anchor hunique hid
        cases h <;> simp [Block.declarations, Block.nestedDeclarations, hinner]
  | .footnote h, hid => by
      simpa [Block.declarations] using h.keeps_anchor hunique hid
  | .reference _, hid => by simp [Block.declarations] at hid
  | .invalid h, hid => by
      simpa [Block.declarations] using h.keeps_anchor hunique hid

theorem Block.YieldsInside.keeps_anchor {id : String} {before after : Block}
    {problems : List Problem}
    (hunique : s.index.anchors.isDuplicate id = false) :
    Block.YieldsInside s before after problems →
      .anchor id ∈ before.nestedDeclarations → .anchor id ∈ after.nestedDeclarations
  | .citation h, hid => h.keeps_anchor hunique hid
  | .footnoteDefinition h, hid => h.keeps_anchor hunique hid
  | .header _, hid => hid
  | .sectionOf _ h, hid => h.keeps_anchor hunique hid
  | .title _, hid => hid
  | .sealed _, hid => hid

/-- An anchor that is not repeated stays declared. -/
theorem Blocks.Yields.keeps_anchor {id : String} {before after : List Block}
    {problems : List Problem}
    (hunique : s.index.anchors.isDuplicate id = false) :
    Blocks.Yields s before after problems →
      .anchor id ∈ Blocks.declarations before →
        .anchor id ∈ Blocks.declarations after
  | .nil, hid => hid
  | .cons h hrest, hid => by
      rw [Blocks.declarations, List.mem_append] at hid
      rw [Blocks.declarations_append, List.mem_append]
      rcases hid with hid | hid
      · exact Or.inl (h.keeps_anchor hunique hid)
      · exact Or.inr (hrest.keeps_anchor hunique hid)

end

/-! ## What the first pass leaves is steady -/

/-- Of the scopes of two passes, nothing is repeated in the second that is
not repeated in the first. -/
structure Scope.Precedes (s s' : Scope) : Prop where
  anchors : s.index.anchors.Covers s'.index.anchors
  citations : s.index.citations.Covers s'.index.citations

variable {s' : Scope}

/-- A checked anchor is kept by a further pass, or only what is inside
counts. -/
theorem Scope.ChecksAnchor.steady {id : Option String} {block out : Block}
    {problems : List Problem} (h : s.ChecksAnchor id block out problems)
    (hprecedes : s.Precedes s') (hkept : s'.KeepsAnchor id → block.Steady s')
    (hinside : block.SteadyInside s') : out.Steady s' := by
  cases h with
  | kept hunique =>
      exact hkept fun i hi => hprecedes.anchors.not_isDuplicate (hunique i hi)
  | repeated _ _ => exact hinside

theorem Scope.steady_blockOfSpan (span : Span) : (blockOfSpan span).Steady s := by
  cases span with
  | invalid fallback problem =>
      cases fallback <;> simp [blockOfSpan, Block.Steady, Block.SteadyInside]
  | _ => simp [blockOfSpan, Block.Steady]

mutual

theorem Block.Yields.steady {before : Block} {after : Option Block}
    {problems : List Problem} (hprecedes : s.Precedes s') :
    Block.Yields s before after problems → before.problems = [] →
      Blocks.Steady s' after.toList
  | .paragraph _, _ => by simp [Blocks.Steady, Block.Steady]
  | .codeBlock, _ => by simp [Blocks.Steady, Block.Steady]
  | .rule, _ => by simp [Blocks.Steady, Block.Steady]
  | .verbatim, _ => by simp [Blocks.Steady, Block.Steady]
  | .decoratedHeader, _ => by simp [Blocks.Steady, Block.Steady]
  | .header _ h, _ => ⟨h.steady hprecedes id trivial, trivial⟩
  | .title _ h, _ => ⟨h.steady hprecedes id trivial, trivial⟩
  | .sectionOf _ hcontent h, hclean => by
      simp at hclean
      have hinner := hcontent.steady hprecedes hclean.2
      exact ⟨h.steady hprecedes (fun hid => ⟨hid, hinner⟩) hinner, trivial⟩
  | .quoted h, hclean => by
      simp at hclean
      exact ⟨h.steady hprecedes hclean, trivial⟩
  | .anchor h, _ => ⟨h.steady hprecedes id trivial, trivial⟩
  | .linkDefinition h, _ => by
      cases h <;> simp [Blocks.Steady, Block.Steady, Block.SteadyInside]
  | .linkAlias h, _ => by
      cases h <;> simp [Blocks.Steady, Block.Steady, Block.SteadyInside]
  | .citation hcontent h, hclean => by
      simp at hclean
      have hinner := hcontent.steady hprecedes hclean
      cases h with
      | nameless _ => exact ⟨hinner, trivial⟩
      | kept hname hunique =>
          have hunique' := hprecedes.citations.not_isDuplicate hunique
          exact ⟨⟨hname, hunique', rfl, hinner⟩, trivial⟩
      | repeated _ _ => exact ⟨hinner, trivial⟩
  | .footnoteDefinition hcontent h, hclean => by
      simp at hclean
      have hinner := hcontent.steady hprecedes hclean
      cases h <;> exact ⟨hinner, trivial⟩
  | .footnote h, hclean => by
      simp at hclean
      exact ⟨h.steady hprecedes hclean, trivial⟩
  | .reference _, _ => ⟨Scope.steady_blockOfSpan _, trivial⟩
  | .invalid _, hclean => by simp at hclean

/-- A pass over blocks without invalid nodes leaves them steady. -/
theorem Blocks.Yields.steady {before after : List Block} {problems : List Problem}
    (hprecedes : s.Precedes s') :
    Blocks.Yields s before after problems → Blocks.problems before = [] →
      Blocks.Steady s' after
  | .nil, _ => trivial
  | .cons h hrest, hclean => by
      simp at hclean
      exact Blocks.steady_append.mpr
        ⟨h.steady hprecedes hclean.1, hrest.steady hprecedes hclean.2⟩

end

/-! ## The second pass -/

theorem Scope.ChecksAnchor.eq_of_keepsAnchor {id : Option String}
    {block out : Block} {problems : List Problem}
    (h : s.ChecksAnchor id block out problems) (hkeeps : s.KeepsAnchor id) :
    out = block := by
  cases id with
  | none =>
      cases h with
      | kept _ => rfl
      | repeated hid _ => cases hid
  | some i => exact h.eq_of_not_duplicate rfl (hkeeps i rfl)

theorem Scope.ChecksAnchor.landmarks_eq {id : Option String}
    {block out : Block} {problems : List Problem}
    (h : s.ChecksAnchor id block out problems) (hkeeps : s.KeepsAnchor id) :
    Blocks.landmarks (some out).toList = block.landmarks := by
  rw [h.eq_of_keepsAnchor hkeeps]
  exact Blocks.landmarks_singleton block

theorem Scope.landmarks_blockOfSpan (span : Span) :
    (blockOfSpan span).landmarks = [] := by
  cases span with
  | invalid fallback problem =>
      cases fallback <;> simp [blockOfSpan, Block.landmarks, Block.nestedLandmarks]
  | _ => simp [blockOfSpan, Block.landmarks]

mutual

theorem Block.Yields.landmarks_eq {before : Block} {after : Option Block}
    {problems : List Problem} :
    Block.Yields s before after problems → before.Steady s →
      Blocks.landmarks after.toList = before.landmarks
  | .header _ h, hsteady => h.landmarks_eq hsteady
  | .title _ h, hsteady => h.landmarks_eq hsteady
  | .sectionOf _ hcontent h, hsteady => by
      rw [h.landmarks_eq hsteady.1, Block.landmarks, Block.landmarks,
        hcontent.landmarks_eq hsteady.2]
  | .quoted h, hsteady => by
      simpa [Block.landmarks] using h.landmarks_eq hsteady
  | .anchor h, hsteady => h.landmarks_eq hsteady
  | .citation hcontent h, hsteady => by
      obtain ⟨hname, hunique, rfl, hinner⟩ := hsteady
      cases h with
      | nameless h => exact absurd h hname
      | repeated _ hdup => rw [hunique] at hdup; cases hdup
      | kept _ _ => simp [Block.landmarks, hcontent.landmarks_eq hinner]
  | .footnoteDefinition _ _, hsteady => hsteady.elim
  | .footnote h, hsteady => by
      simpa [Block.landmarks] using h.landmarks_eq hsteady
  | .invalid h, hsteady => by
      simpa [Block.landmarks] using h.nestedLandmarks_eq hsteady
  | .linkDefinition h, _ => by
      cases h <;> simp [Blocks.landmarks, Block.landmarks, Block.nestedLandmarks]
  | .linkAlias h, _ => by
      cases h <;> simp [Blocks.landmarks, Block.landmarks, Block.nestedLandmarks]
  | .reference _, _ => by
      simp [Block.landmarks, Scope.landmarks_blockOfSpan]
  | .paragraph _, _ | .codeBlock, _ | .rule, _ | .verbatim, _
  | .decoratedHeader, _ => by simp [Block.landmarks]

theorem Block.YieldsInside.nestedLandmarks_eq {before after : Block}
    {problems : List Problem} :
    Block.YieldsInside s before after problems → before.SteadyInside s →
      after.nestedLandmarks = before.nestedLandmarks
  | .citation h, hsteady => h.landmarks_eq hsteady
  | .footnoteDefinition h, hsteady => h.landmarks_eq hsteady
  | .header _, _ => rfl
  | .sectionOf _ h, hsteady => h.landmarks_eq hsteady
  | .title _, _ => rfl
  | .sealed _, _ => rfl

/-- A pass keeps the landmarks of steady blocks and adds none. -/
theorem Blocks.Yields.landmarks_eq {before after : List Block}
    {problems : List Problem} :
    Blocks.Yields s before after problems → Blocks.Steady s before →
      Blocks.landmarks after = Blocks.landmarks before
  | .nil, _ => rfl
  | .cons h hrest, hsteady => by
      rw [Blocks.landmarks_append, h.landmarks_eq hsteady.1,
        hrest.landmarks_eq hsteady.2, Blocks.landmarks]

end

end

/-! ## Both phases -/

namespace Document

variable {d : Document} {id : String}

theorem steady_settled (d : Document) (tree : TreeIndex)
    (h : Blocks.problems d.content = []) :
    Blocks.Steady (d.secondScope tree) d.settled.content := by
  obtain ⟨problems, hyields, -⟩ := d.yields_settled
  exact hyields.steady
    ⟨d.secondScope_anchors tree, d.secondScope_citations tree⟩
    ((Blocks.problems_buildOutline _ _).trans h)

/-- The second pass keeps the landmarks. -/
theorem landmarks_finished (tree : TreeIndex) (h : Blocks.problems d.content = []) :
    Blocks.landmarks (d.finished tree).content
      = Blocks.landmarks d.settled.content := by
  obtain ⟨problems, hyields, -⟩ := d.yields_finished tree
  exact hyields.landmarks_eq (d.steady_settled tree h)

/-- What can be linked to between the phases can be linked to in the end. -/
theorem usable_finished (tree : TreeIndex) (h : Blocks.problems d.content = [])
    (hid : id ∈ Blocks.usableAnchors d.settled.content) :
    id ∈ Blocks.usableAnchors (d.finished tree).content := by
  rw [← Blocks.ids_landmarks] at hid ⊢
  rwa [landmarks_finished tree h]

/-- An anchor declared once can be linked to between the phases. -/
theorem usable_settled (h : Blocks.problems d.content = [])
    (hid : d.firstScope.index.anchors.entry? id = some (.unique ())) :
    id ∈ Blocks.usableAnchors d.settled.content := by
  obtain ⟨problems, hyields, -⟩ := d.yields_settled
  have hdeclared := hyields.keeps_anchor
    (Namespace.isDuplicate_eq_false_of_unique hid)
    (DocumentIndex.mem_anchors.mp (Namespace.mem_of_entry?_eq_unique hid))
  exact (d.steady_settled ⟨[], []⟩ h).usable_of_declared hdeclared

/-- An anchor declared once can be linked to in the end. -/
theorem usable_of_firstScope (tree : TreeIndex)
    (h : Blocks.problems d.content = [])
    (hid : d.firstScope.index.anchors.entry? id = some (.unique ())) :
    id ∈ Blocks.usableAnchors (d.finished tree).content :=
  usable_finished tree h (usable_settled h hid)

/-- So can an anchor that the local phase left declared once. -/
theorem usable_of_secondScope (tree : TreeIndex)
    (h : Blocks.problems d.content = [])
    (hid : (d.secondScope tree).index.anchors.entry? id = some (.unique ())) :
    id ∈ Blocks.usableAnchors (d.finished tree).content :=
  usable_finished tree h ((d.steady_settled tree h).usable_of_declared
    (DocumentIndex.mem_anchors.mp (Namespace.mem_of_entry?_eq_unique hid)))

end Document

end Crosslink
