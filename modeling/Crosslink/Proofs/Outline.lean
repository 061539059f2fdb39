import Crosslink.Outline.Sections
import Crosslink.Proofs.Nodes

/-!
# Outlining keeps the nodes

Outlining turns headers into a title and into sections and moves the blocks
after a header into its section. Apart from these headings it keeps every
node and the order of the nodes. So whatever is read off the nodes without
regard to headings is the same for a document and its outline
(`collect_buildOutline`): its invalid nodes, the targets of its links, its
references. A header takes some of the blocks after it into its section, and
every other block stands in the outline unchanged (`grouped_nestSections`). An
outline has no header at its top level, and outlining leaves such a sequence of
blocks as it is (`buildOutline_eq_self`).
-/

namespace Crosslink

def Node.isHeading : Node → Bool
  | .block (.header _) => true
  | .block (.decoratedHeader _) => true
  | .block (.title _) => true
  | .block (.sectionOf _ _) => true
  | _ => false

theorem Node.forall_isHeading {P : Node → Prop}
    (hheader : ∀ header, P (.block (.header header)))
    (hdecorated : ∀ header, P (.block (.decoratedHeader header)))
    (htitle : ∀ title, P (.block (.title title)))
    (hsection : ∀ header content, P (.block (.sectionOf header content))) :
    ∀ node : Node, node.isHeading = true → P node
  | .block (.header header), _ => hheader header
  | .block (.decoratedHeader header), _ => hdecorated header
  | .block (.title title), _ => htitle title
  | .block (.sectionOf header content), _ => hsection header content

namespace Blocks

variable {α : Type} {f : Node → Option α} {extent : Extent}

theorem collect_eq_flatMap (blocks : List Block) :
    collect f extent blocks = blocks.flatMap (Block.collect f extent) := by
  induction blocks with
  | nil => rfl
  | cons block blocks ih => rw [collect_cons, List.flatMap_cons, ih]

/-! ## Levels, title and ids -/

/-- Whatever a heading becomes, its text stays. -/
theorem collect_step (hf : ∀ node : Node, node.isHeading = true → f node = none)
    (s : Leveling) (block : Block) :
    (s.step block).1.collect f extent = block.collect f extent := by
  unfold Leveling.step
  split
  · rename_i header
    split
    · simp [Leveling.promote, hf (.block (.title _)) rfl,
        hf (.block (.header _)) rfl]
    · simp [hf (.block (.header _)) rfl]
  · rename_i header
    split
    · simp [Leveling.promote, hf (.block (.title _)) rfl,
        hf (.block (.decoratedHeader _)) rfl]
    · simp [hf (.block (.header _)) rfl, hf (.block (.decoratedHeader _)) rfl]
  · rfl

theorem collect_levelHeaders
    (hf : ∀ node : Node, node.isHeading = true → f node = none) (flag : Bool)
    (blocks : List Block) :
    collect f extent (levelHeaders flag blocks) = collect f extent blocks := by
  have hrun : ∀ s : Leveling,
      collect f extent (s.run blocks) = collect f extent blocks := by
    intro s
    induction blocks generalizing s with
    | nil => rfl
    | cons block blocks ih =>
        simp only [Leveling.run]
        rw [collect_cons, collect_cons, collect_step hf, ih]
  exact hrun _

/-! ## Sections -/

/-- The sequence grouped into sections: each header opens one that holds some
of the blocks after it, and every other block stands unchanged. -/
inductive Grouped : (blocks grouped : List Block) → Prop
  | nil : Grouped [] []
  | opened {header : Header} {inside content rest grouped : List Block}
      (hinside : Grouped inside content) (hrest : Grouped rest grouped) :
      Grouped (.header header :: (inside ++ rest)) (.sectionOf header content :: grouped)
  | kept {block : Block} {blocks grouped : List Block}
      (hblock : ∀ header, block ≠ .header header) (hrest : Grouped blocks grouped) :
      Grouped (block :: blocks) (block :: grouped)

/-- What was grouped into two parts falls apart into what each was made of. -/
theorem Grouped.split {blocks first second : List Block}
    (h : Grouped blocks (first ++ second)) :
    ∃ front back, blocks = front ++ back ∧ Grouped front first ∧ Grouped back second := by
  induction first generalizing blocks with
  | nil => exact ⟨[], blocks, rfl, .nil, h⟩
  | cons block first ih =>
      cases h with
      | opened hinside hrest =>
          obtain ⟨front, back, rfl, hfront, hback⟩ := ih hrest
          exact ⟨_, back, by rw [← List.append_assoc, ← List.cons_append],
            .opened hinside hfront, hback⟩
      | kept hblock hrest =>
          obtain ⟨front, back, rfl, hfront, hback⟩ := ih hrest
          exact ⟨block :: front, back, rfl, .kept hblock hfront, hback⟩

/-- A header in front takes the leading blocks and the deeper sections, and the
other sections stay behind it. -/
theorem Grouped.openWith {blocks : List Block} {s : Sectioning}
    (h : Grouped blocks s.toBlocks) (header : Header) :
    Grouped (.header header :: blocks) (s.openWith header).toBlocks := by
  let deeper : OpenSection → Bool := fun t => decide (header.level < t.header.level)
  have hcut : s.toBlocks
      = s.lead ++ (s.sections.takeWhile deeper).map OpenSection.toBlock
        ++ (s.sections.dropWhile deeper).map OpenSection.toBlock := by
    rw [List.append_assoc, ← List.map_append, List.takeWhile_append_dropWhile,
      Sectioning.toBlocks]
  rw [hcut] at h
  obtain ⟨inside, rest, rfl, hinside, hrest⟩ := h.split
  exact .opened hinside hrest

theorem grouped_nestSections (blocks : List Block) : Grouped blocks (nestSections blocks) := by
  unfold nestSections
  induction blocks with
  | nil => exact .nil
  | cons block blocks ih =>
      have hkept : (∀ header, block ≠ .header header) →
          Grouped (block :: blocks) (Sectioning.toBlocks
            { Sectioning.ofBlocks blocks with
              lead := block :: (Sectioning.ofBlocks blocks).lead }) :=
        fun hblock => .kept hblock ih
      cases block with
      | header header => exact ih.openWith header
      | _ => exact hkept nofun

/-- Grouping keeps the order of the blocks for whatever reads a section as its
header and then its content. -/
theorem Grouped.flatMap_eq {g : Block → List α}
    (hg : ∀ header content,
      g (.sectionOf header content) = g (.header header) ++ content.flatMap g)
    {blocks grouped : List Block} (h : Grouped blocks grouped) :
    grouped.flatMap g = blocks.flatMap g := by
  induction h with
  | nil => rfl
  | opened _ _ ihinside ihrest =>
      rw [List.flatMap_cons, List.flatMap_cons, List.flatMap_append, hg, ihinside, ihrest,
        List.append_assoc]
  | kept _ _ ihrest => rw [List.flatMap_cons, List.flatMap_cons, ihrest]

theorem collect_nestSections
    (hf : ∀ node : Node, node.isHeading = true → f node = none)
    (blocks : List Block) :
    collect f extent (nestSections blocks) = collect f extent blocks := by
  rw [collect_eq_flatMap, collect_eq_flatMap]
  refine (grouped_nestSections blocks).flatMap_eq fun header content => ?_
  rw [← collect_eq_flatMap]
  simp [hf (.block (.sectionOf _ _)) rfl, hf (.block (.header _)) rfl]

/-! ## The whole outline -/

/-- What is read off the nodes without regard to headings is the same for a
document and its outline. -/
theorem collect_buildOutline
    (hf : ∀ node : Node, node.isHeading = true → f node = none)
    (extent : Extent) (flag : Bool) (blocks : List Block) :
    collect f extent (buildOutline flag blocks) = collect f extent blocks :=
  (collect_nestSections hf _).trans (collect_levelHeaders hf flag blocks)

theorem problems_buildOutline (flag : Bool) (blocks : List Block) :
    problems (buildOutline flag blocks) = problems blocks :=
  collect_buildOutline (Node.forall_isHeading (fun _ => rfl) (fun _ => rfl)
    (fun _ => rfl) fun _ _ => rfl) .everywhere flag blocks

theorem internalTargets_buildOutline (flag : Bool) (blocks : List Block) :
    internalTargets (buildOutline flag blocks) = internalTargets blocks :=
  collect_buildOutline (Node.forall_isHeading (fun _ => rfl) (fun _ => rfl)
    (fun _ => rfl) fun _ _ => rfl) .everywhere flag blocks

end Blocks

/-! ## Outlining an outline -/

/-- Outlining makes a title or a section out of the block. -/
def Block.opensSection : Block → Bool
  | .header _ => true
  | .decoratedHeader _ => true
  | _ => false

def Block.isDecorated : Block → Bool
  | .decoratedHeader _ => true
  | _ => false

namespace Blocks

theorem not_isDecorated_step (s : Leveling) (block : Block) :
    (s.step block).1.isDecorated = false := by
  cases block with
  | header header =>
      simp only [Leveling.step]
      split <;> rfl
  | decoratedHeader header =>
      simp only [Leveling.step]
      split <;> rfl
  | _ => rfl

theorem not_isDecorated_levelHeaders (flag : Bool) (blocks : List Block) :
    ∀ block ∈ levelHeaders flag blocks, block.isDecorated = false := by
  have hrun : ∀ s : Leveling, ∀ block ∈ s.run blocks,
      block.isDecorated = false := by
    induction blocks with
    | nil => exact fun s block hmem => absurd hmem List.not_mem_nil
    | cons head blocks ih =>
        intro s block hmem
        simp only [Leveling.run] at hmem
        rcases List.mem_cons.mp hmem with rfl | hmem
        · exact not_isDecorated_step s head
        · exact ih _ block hmem
  exact hrun _

/-- What stands before the first header holds no header. -/
theorem lead_ofBlocks (blocks : List Block)
    (h : ∀ block ∈ blocks, block.isDecorated = false) :
    ∀ block ∈ (Sectioning.ofBlocks blocks).lead, block.opensSection = false := by
  induction blocks with
  | nil => exact fun block hmem => absurd hmem List.not_mem_nil
  | cons head blocks ih =>
      obtain ⟨hhead, hrest⟩ := List.forall_mem_cons.mp h
      have hother : head.opensSection = false →
          ∀ block ∈ head :: (Sectioning.ofBlocks blocks).lead,
            block.opensSection = false :=
        fun hplain => List.forall_mem_cons.mpr ⟨hplain, ih hrest⟩
      cases head with
      | header header => exact fun block hmem => absurd hmem List.not_mem_nil
      | decoratedHeader header => cases hhead
      | _ => exact hother rfl

/-- An outline has no header at its top level. -/
theorem not_opensSection_buildOutline (flag : Bool) (blocks : List Block) :
    ∀ block ∈ buildOutline flag blocks, block.opensSection = false := by
  intro block hmem
  rcases List.mem_append.mp hmem with hlead | hsection
  · exact lead_ofBlocks _ (not_isDecorated_levelHeaders flag blocks) block hlead
  · obtain ⟨s, -, rfl⟩ := List.mem_map.mp hsection
    rfl

theorem run_eq_self (s : Leveling) {blocks : List Block}
    (h : ∀ block ∈ blocks, block.opensSection = false) : s.run blocks = blocks := by
  induction blocks generalizing s with
  | nil => rfl
  | cons block blocks ih =>
      obtain ⟨hblock, hrest⟩ := List.forall_mem_cons.mp h
      have hstep : s.step block = (block, s) := by
        cases block with
        | header header => cases hblock
        | decoratedHeader header => cases hblock
        | _ => rfl
      simp only [Leveling.run, hstep, ih s hrest]

theorem ofBlocks_eq_lead {blocks : List Block}
    (h : ∀ block ∈ blocks, block.opensSection = false) :
    Sectioning.ofBlocks blocks = ⟨blocks, []⟩ := by
  induction blocks with
  | nil => rfl
  | cons block blocks ih =>
      obtain ⟨hblock, hrest⟩ := List.forall_mem_cons.mp h
      cases block with
      | header header => cases hblock
      | _ => simp only [Sectioning.ofBlocks, ih hrest]

/-- Outlining leaves blocks alone that hold no header at the top level. -/
theorem buildOutline_eq_self (flag : Bool) {blocks : List Block}
    (h : ∀ block ∈ blocks, block.opensSection = false) :
    buildOutline flag blocks = blocks := by
  rw [buildOutline, levelHeaders, run_eq_self _ h, nestSections,
    ofBlocks_eq_lead h]
  exact List.append_nil blocks

end Blocks

end Crosslink
