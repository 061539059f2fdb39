import Mathlib.Data.List.TakeWhile
import Crosslink.Proofs.Outline

/-!
# The section tree

Grouping a sequence of headers and other blocks into sections loses nothing
and has one right answer. Read from the first to the last, the sections give
the sequence back (`Blocks.unfolded`), and among blocks that stand side by
side the sections come last, in falling levels, all of them deeper than the
section around them (`Blocks.Outlined`). Each header put in front of a
sequence keeps this (`Sectioning.InOrder.openWith`), and no other blocks
have both properties (`nestSections_unfolded`).

So the place of every block is known from the sequence alone: it stands
under the nearest earlier header that may hold it, which is any header for
an ordinary block and one of a smaller level for a header
(`Blocks.Nearest`, `Blocks.reads_owners`).
-/

namespace Crosslink

/-! ## Sections and what they hold -/

def Block.sectionLevel? : Block → Option Nat
  | .sectionOf h _ => some h.level
  | _ => none

def Block.isSection : Block → Bool
  | .sectionOf _ _ => true
  | _ => false

mutual

/-- The block in reading order: a section is its header and then what stands
in it. -/
def Block.unfolded : Block → List Block
  | .sectionOf header content => .header header :: Blocks.unfolded content
  | block => [block]

def Blocks.unfolded : List Block → List Block
  | [] => []
  | block :: blocks => block.unfolded ++ Blocks.unfolded blocks

end

mutual

/-- The sections at every depth. -/
def Block.sections : Block → List OpenSection
  | .sectionOf header content => ⟨header, content⟩ :: Blocks.sections content
  | _ => []

def Blocks.sections : List Block → List OpenSection
  | [] => []
  | block :: blocks => block.sections ++ Blocks.sections blocks

end

mutual

/-- For each block in reading order the place of the header it stands under;
`owner` is the header around the block, and `place` blocks come before. -/
def Block.owners (owner : Option Nat) (place : Nat) : Block → List (Option Nat)
  | .sectionOf _ content =>
    owner :: Blocks.owners (some place) (place + 1) content
  | _ => [owner]

def Blocks.owners (owner : Option Nat) (place : Nat) :
    List Block → List (Option Nat)
  | [] => []
  | block :: blocks =>
    block.owners owner place
      ++ Blocks.owners owner (place + block.unfolded.length) blocks

end

/-- Blocks side by side, in a section with the header `around` or at the top. -/
structure Blocks.Siblings (around : Option Header) (siblings : List Block) :
    Prop where
  /-- Every header has opened its section. -/
  opened : ∀ header, .header header ∉ siblings
  /-- A section is deeper than the one it stands in. -/
  deeper : ∀ header ∈ around, ∀ level ∈ siblings.filterMap Block.sectionLevel?,
    header.level < level
  /-- Behind a section there are only sections. -/
  sectionsLast : siblings.Pairwise fun block next =>
    block.isSection = true → next.isSection = true
  /-- Levels never increase from one section to a later one. -/
  falling : (siblings.filterMap Block.sectionLevel?).Pairwise fun level next =>
    next ≤ level

/-- The blocks side by side are in order, here and in all sections below. -/
structure Blocks.Outlined (around : Option Header) (blocks : List Block) :
    Prop where
  here : Blocks.Siblings around blocks
  below : ∀ s ∈ Blocks.sections blocks, Blocks.Siblings (some s.header) s.content

/-- A header may hold every block but headers of the same or a smaller
level. -/
def Header.holds (outer : Header) : Block → Bool
  | .header inner => decide (outer.level < inner.level)
  | .sectionOf inner _ => decide (outer.level < inner.level)
  | _ => true

/-- The place of the last header among `earlier` blocks that may hold
`block`, none if no header may. -/
inductive Blocks.Nearest (block : Block) : (earlier : List Block) →
    Option Nat → Prop
  | unowned {earlier : List Block}
      (h : ∀ header, .header header ∈ earlier → header.holds block = false) :
      Nearest block earlier none
  | owned {before after : List Block} {header : Header}
      (h : header.holds block = true)
      (hafter : ∀ next, .header next ∈ after → next.holds block = false) :
      Nearest block (before ++ .header header :: after) (some before.length)

/-! ## Induction over sections -/

namespace Blocks

mutual

theorem sectionInduction_cons {P : List Block → Prop} (nil : P [])
    (sectionOf : ∀ header content blocks, P content → P blocks →
      P (.sectionOf header content :: blocks))
    (plain : ∀ block blocks, block.isSection = false → P blocks →
      P (block :: blocks)) :
    ∀ (block : Block) (blocks : List Block), P blocks → P (block :: blocks)
  | .sectionOf header content, blocks, h =>
      sectionOf header content blocks
        (sectionInduction nil sectionOf plain content) h
  | .header _, blocks, h | .decoratedHeader _, blocks, h | .title _, blocks, h
  | .paragraph _, blocks, h | .codeBlock _ _, blocks, h | .rule, blocks, h
  | .verbatim _ _, blocks, h | .quoted _, blocks, h | .anchor _, blocks, h
  | .linkDefinition _, blocks, h | .linkAlias _, blocks, h
  | .citation _ _ _, blocks, h | .footnoteDefinition _ _, blocks, h
  | .footnote _ _ _, blocks, h | .reference _ _, blocks, h
  | .invalid _ _, blocks, h => plain _ blocks rfl h

/-- What is shown of a sequence is shown for the content of each section and
for what stands behind a block. -/
@[elab_as_elim]
theorem sectionInduction {P : List Block → Prop} (nil : P [])
    (sectionOf : ∀ header content blocks, P content → P blocks →
      P (.sectionOf header content :: blocks))
    (plain : ∀ block blocks, block.isSection = false → P blocks →
      P (block :: blocks)) :
    ∀ blocks : List Block, P blocks
  | [] => nil
  | block :: blocks =>
      sectionInduction_cons nil sectionOf plain block blocks
        (sectionInduction nil sectionOf plain blocks)

end

theorem unfolded_sectionOf (header : Header) (content blocks : List Block) :
    unfolded (.sectionOf header content :: blocks)
      = .header header :: (unfolded content ++ unfolded blocks) := rfl

theorem unfolded_plain {block : Block} (h : block.isSection = false)
    (blocks : List Block) : unfolded (block :: blocks) = block :: unfolded blocks := by
  cases block with
  | sectionOf header content => cases h
  | _ => rfl

theorem mem_sections {s : OpenSection} {blocks : List Block} :
    s ∈ sections blocks ↔ ∃ block ∈ blocks, s ∈ block.sections := by
  induction blocks with
  | nil => exact ⟨fun h => (nomatch h), fun ⟨_, h, _⟩ => (nomatch h)⟩
  | cons block blocks ih => simp only [sections, List.mem_append, ih, List.mem_cons,
      exists_eq_or_imp]

theorem owners_sectionOf (owner : Option Nat) (place : Nat) (header : Header)
    (content blocks : List Block) :
    owners owner place (.sectionOf header content :: blocks)
      = owner :: (owners (some place) (place + 1) content
        ++ owners owner (place + ((unfolded content).length + 1)) blocks) := rfl

theorem owners_plain {block : Block} (h : block.isSection = false)
    (owner : Option Nat) (place : Nat) (blocks : List Block) :
    owners owner place (block :: blocks)
      = owner :: owners owner (place + 1) blocks := by
  cases block with
  | sectionOf header content => cases h
  | _ => rfl

theorem isSection_unfolded (blocks : List Block) :
    ∀ block ∈ unfolded blocks, block.isSection = false := by
  induction blocks using sectionInduction with
  | nil => exact fun block hmem => nomatch hmem
  | sectionOf header content blocks ihcontent ih =>
      intro block hmem
      rw [unfolded_sectionOf] at hmem
      rcases List.mem_cons.mp hmem with rfl | hmem
      · rfl
      · exact (List.mem_append.mp hmem).elim (ihcontent block) (ih block)
  | plain first blocks hplain ih =>
      intro block hmem
      rw [unfolded_plain hplain] at hmem
      rcases List.mem_cons.mp hmem with rfl | hmem
      · exact hplain
      · exact ih block hmem

theorem unfolded_eq_flatMap (blocks : List Block) :
    unfolded blocks = blocks.flatMap Block.unfolded := by
  induction blocks with
  | nil => rfl
  | cons block blocks ih => rw [unfolded, ih, List.flatMap_cons]

/-- Without sections there is nothing to unfold. -/
theorem unfolded_eq_self {blocks : List Block}
    (h : ∀ block ∈ blocks, block.isSection = false) : unfolded blocks = blocks := by
  induction blocks with
  | nil => rfl
  | cons block blocks ih =>
      obtain ⟨hblock, hrest⟩ := List.forall_mem_cons.mp h
      rw [unfolded_plain hblock, ih hrest]

/-- Grouping into sections loses nothing and keeps the order. -/
theorem unfolded_nestSections (blocks : List Block) :
    unfolded (nestSections blocks) = unfolded blocks := by
  rw [unfolded_eq_flatMap, unfolded_eq_flatMap]
  refine (grouped_nestSections blocks).flatMap_eq fun header content => ?_
  rw [← unfolded_eq_flatMap]
  rfl

end Blocks

/-! ## Blocks side by side -/

namespace Blocks

variable {around : Option Header} {block : Block} {blocks content : List Block}
  {header : Header}

theorem Siblings.tail (h : Siblings around (block :: blocks)) :
    Siblings around blocks := by
  have hsublist := (List.sublist_cons_self block blocks).filterMap
    Block.sectionLevel?
  exact
    { opened := fun next hnext => h.opened next (List.mem_cons_of_mem _ hnext)
      deeper := fun next hnext level hlevel =>
        h.deeper next hnext level (hsublist.subset hlevel)
      sectionsLast := (List.pairwise_cons.mp h.sectionsLast).2
      falling := h.falling.sublist hsublist }

/-- Behind a section there are only sections, none of them deeper. -/
theorem Siblings.behind (h : Siblings around (.sectionOf header content :: blocks)) :
    ∀ next ∈ blocks, ∃ inner inside,
      next = .sectionOf inner inside ∧ inner.level ≤ header.level := by
  intro next hnext
  have hlast := (List.pairwise_cons.mp h.sectionsLast).1 next hnext rfl
  cases next with
  | sectionOf inner inside =>
      refine ⟨inner, inside, rfl, ?_⟩
      exact (List.pairwise_cons.mp h.falling).1 inner.level
        (List.mem_filterMap.mpr ⟨_, hnext, rfl⟩)
  | _ => cases hlast

theorem Siblings.holds (h : Siblings (some header) blocks) :
    ∀ block ∈ blocks, header.holds block = true := by
  intro block hmem
  cases block with
  | header inner => exact absurd hmem (h.opened inner)
  | sectionOf inner inside =>
      exact decide_eq_true
        (h.deeper header rfl inner.level (List.mem_filterMap.mpr ⟨_, hmem, rfl⟩))
  | _ => rfl

theorem Outlined.tail (h : Outlined around (block :: blocks)) :
    Outlined around blocks where
  here := h.here.tail
  below := fun s hs => h.below s (List.mem_append_right _ hs)

theorem Outlined.inside (h : Outlined around (.sectionOf header content :: blocks)) :
    Outlined (some header) content where
  here := h.below ⟨header, content⟩ List.mem_cons_self
  below := fun s hs =>
    h.below s (List.mem_append_left _ (List.mem_cons_of_mem _ hs))

/-- Every header in a section is deeper than the section. -/
theorem Outlined.lt_level (h : Outlined (some header) blocks) :
    ∀ inner, .header inner ∈ unfolded blocks → header.level < inner.level := by
  intro inner hmem
  induction blocks using sectionInduction generalizing header with
  | nil => nomatch hmem
  | sectionOf outer content blocks ihcontent ih =>
      have houter : header.level < outer.level :=
        of_decide_eq_true (h.here.holds _ List.mem_cons_self)
      rw [unfolded_sectionOf] at hmem
      rcases List.mem_cons.mp hmem with heq | hmem
      · obtain rfl := Block.header.inj heq
        exact houter
      · rcases List.mem_append.mp hmem with hmem | hmem
        · have := ihcontent h.inside hmem
          omega
        · exact ih h.tail hmem
  | plain block blocks hplain ih =>
      rw [unfolded_plain hplain] at hmem
      rcases List.mem_cons.mp hmem with rfl | hmem
      · exact absurd List.mem_cons_self (h.here.opened inner)
      · exact ih h.tail hmem

end Blocks

/-! ## What a header in front does -/

namespace Sectioning

/-- Ordinary blocks first, then sections of falling levels, each in order
inside. -/
structure InOrder (s : Sectioning) : Prop where
  lead : ∀ block ∈ s.lead,
    block.isSection = false ∧ ∀ header, block ≠ .header header
  falling : s.sections.Pairwise fun t next => next.header.level ≤ t.header.level
  below : ∀ t ∈ s.sections, Blocks.Outlined (some t.header) t.content

theorem mem_toBlocks {s : Sectioning} {block : Block} :
    block ∈ s.toBlocks ↔ block ∈ s.lead ∨ ∃ t ∈ s.sections, t.toBlock = block := by
  rw [toBlocks, List.mem_append, List.mem_map]

theorem sectionLevels_toBlocks {s : Sectioning} (h : s.InOrder) :
    s.toBlocks.filterMap Block.sectionLevel?
      = s.sections.map fun t => t.header.level := by
  have hlead : s.lead.filterMap Block.sectionLevel? = [] := by
    refine List.filterMap_eq_nil_iff.mpr fun block hmem => ?_
    have hplain := (h.lead block hmem).1
    cases block with
    | sectionOf header content => cases hplain
    | _ => rfl
  rw [toBlocks, List.filterMap_append, hlead, List.nil_append, List.filterMap_map]
  exact congrFun (List.filterMap_eq_map (f := fun t : OpenSection => t.header.level))
    s.sections

/-- Sections put side by side with their content in order are an outline. -/
theorem InOrder.outlined {s : Sectioning} (h : s.InOrder) {around : Option Header}
    (hdeeper : ∀ header ∈ around, ∀ t ∈ s.sections, header.level < t.header.level) :
    Blocks.Outlined around s.toBlocks where
  here :=
    { opened := by
        intro header hmem
        rcases mem_toBlocks.mp hmem with hlead | ⟨t, -, heq⟩
        · exact (h.lead _ hlead).2 header rfl
        · cases heq
      deeper := by
        intro header haround level hlevel
        rw [sectionLevels_toBlocks h] at hlevel
        obtain ⟨t, ht, rfl⟩ := List.mem_map.mp hlevel
        exact hdeeper header haround t ht
      sectionsLast := by
        refine List.pairwise_append.mpr ⟨?_, ?_, ?_⟩
        · refine List.pairwise_of_forall_mem_list fun block hmem next _ hsection => ?_
          rw [(h.lead block hmem).1] at hsection
          cases hsection
        · refine List.pairwise_map.mpr (List.pairwise_of_forall fun t next _ => rfl)
        · intro block hmem next _ hsection
          rw [(h.lead block hmem).1] at hsection
          cases hsection
      falling := by
        rw [sectionLevels_toBlocks h]
        exact List.pairwise_map.mpr h.falling }
  below := by
    intro inner hmem
    obtain ⟨block, hblock, hinner⟩ := Blocks.mem_sections.mp hmem
    rcases mem_toBlocks.mp hblock with hlead | ⟨t, ht, rfl⟩
    · have hplain := (h.lead block hlead).1
      cases block with
      | sectionOf header content => cases hplain
      | _ => nomatch hinner
    · rcases List.mem_cons.mp hinner with rfl | hinner
      · exact (h.below t ht).here
      · exact (h.below t ht).below inner hinner

/-- A header in front of ordered blocks takes its share of them, and all is
in order again. -/
theorem InOrder.openWith {s : Sectioning} (h : s.InOrder) (header : Header) :
    (s.openWith header).InOrder := by
  let deeper : OpenSection → Bool := fun t => decide (header.level < t.header.level)
  have htaken : InOrder ⟨s.lead, s.sections.takeWhile deeper⟩ :=
    { lead := h.lead
      falling := h.falling.sublist (List.takeWhile_sublist deeper)
      below := fun t ht => h.below t ((List.takeWhile_sublist deeper).subset ht) }
  have hinside : Blocks.Outlined (some header)
      (s.lead ++ (s.sections.takeWhile deeper).map OpenSection.toBlock) := by
    refine htaken.outlined fun outer houter t ht => ?_
    obtain rfl := Option.some.inj houter
    exact of_decide_eq_true (List.mem_takeWhile_imp (p := deeper) ht)
  have hfalling := h.falling.sublist (List.dropWhile_sublist deeper)
  have hrest : ∀ t ∈ s.sections.dropWhile deeper, t.header.level ≤ header.level := by
    intro t ht
    cases hleft : s.sections.dropWhile deeper with
    | nil => rw [hleft] at ht; nomatch ht
    | cons first left =>
        have hfirst : first.header.level ≤ header.level := by
          have hnot := List.head?_dropWhile_not deeper s.sections
          rw [hleft] at hnot
          exact Nat.not_lt.mp (of_decide_eq_false hnot)
        rw [hleft] at ht hfalling
        rcases List.mem_cons.mp ht with rfl | ht
        · exact hfirst
        · exact Nat.le_trans ((List.pairwise_cons.mp hfalling).1 t ht) hfirst
  exact
    { lead := fun block hmem => nomatch hmem
      falling := List.pairwise_cons.mpr ⟨hrest, hfalling⟩
      below := List.forall_mem_cons.mpr ⟨hinside, fun t ht =>
        h.below t ((List.dropWhile_sublist deeper).subset ht)⟩ }

/-- Cutting a sequence without sections puts it in order. -/
theorem inOrder_ofBlocks {blocks : List Block}
    (h : ∀ block ∈ blocks, block.isSection = false) : (ofBlocks blocks).InOrder := by
  induction blocks with
  | nil =>
      exact
        { lead := fun block hmem => nomatch hmem
          falling := .nil
          below := fun t ht => nomatch ht }
  | cons block blocks ih =>
      obtain ⟨hblock, hblocks⟩ := List.forall_mem_cons.mp h
      have hrest := ih hblocks
      have hplain : (∀ header, block ≠ .header header) →
          InOrder { ofBlocks blocks with lead := block :: (ofBlocks blocks).lead } :=
        fun hheader =>
          { lead := List.forall_mem_cons.mpr ⟨⟨hblock, hheader⟩, hrest.lead⟩
            falling := hrest.falling
            below := hrest.below }
      cases block with
      | header header => exact hrest.openWith header
      | _ => exact hplain fun header heq => nomatch heq

/-- A header leaves alone what is not deeper than it. -/
theorem openWith_append {lead : List Block} {sections others : List OpenSection}
    {header : Header} (h : ∀ t ∈ others, t.header.level ≤ header.level) :
    openWith ⟨lead, sections ++ others⟩ header
      = ⟨[], (openWith ⟨lead, sections⟩ header).sections ++ others⟩ := by
  let deeper : OpenSection → Bool := fun t => decide (header.level < t.header.level)
  have hnot : ∀ t ∈ others, ¬ deeper t = true := fun t ht hdeeper =>
    Nat.not_lt.mpr (h t ht) (of_decide_eq_true hdeeper)
  have hothers : others.takeWhile deeper = [] ∧ others.dropWhile deeper = others := by
    cases others with
    | nil => exact ⟨rfl, rfl⟩
    | cons t others =>
        have ht := hnot t List.mem_cons_self
        exact ⟨List.takeWhile_cons_of_neg ht, List.dropWhile_cons_of_neg ht⟩
  have hcut : (sections ++ others).takeWhile deeper = sections.takeWhile deeper
      ∧ (sections ++ others).dropWhile deeper = sections.dropWhile deeper ++ others := by
    induction sections with
    | nil => exact hothers
    | cons t sections ih =>
        by_cases ht : deeper t = true
        · simp only [List.cons_append, List.takeWhile_cons_of_pos ht,
            List.dropWhile_cons_of_pos ht, ih, and_self]
        · simp only [List.cons_append, List.takeWhile_cons_of_neg ht,
            List.dropWhile_cons_of_neg ht, and_self]
  simp only [openWith, List.cons_append]
  rw [hcut.1, hcut.2]

/-- A header takes all if all is deeper than it. -/
theorem openWith_deeper {s : Sectioning} {header : Header}
    (h : ∀ t ∈ s.sections, header.level < t.header.level) :
    s.openWith header = ⟨[], [⟨header, s.toBlocks⟩]⟩ := by
  have hdeeper : ∀ t ∈ s.sections,
      decide (header.level < t.header.level) = true := fun t ht =>
    decide_eq_true (h t ht)
  simp only [openWith, toBlocks]
  rw [List.takeWhile_eq_self_iff.mpr hdeeper, List.dropWhile_eq_nil_iff.mpr hdeeper]

/-- Two sequences can be cut one by one if no header of the first one takes
anything from the second. -/
theorem ofBlocks_append {first second : List Block}
    (hlead : (ofBlocks second).lead = [])
    (h : ∀ header, .header header ∈ first →
      ∀ t ∈ (ofBlocks second).sections, t.header.level ≤ header.level) :
    ofBlocks (first ++ second)
      = ⟨(ofBlocks first).lead,
          (ofBlocks first).sections ++ (ofBlocks second).sections⟩ := by
  induction first with
  | nil =>
      show ofBlocks second = ⟨[], (ofBlocks second).sections⟩
      rw [← hlead]
  | cons block first ih =>
      have hfirst := ih fun header hmem => h header (List.mem_cons_of_mem _ hmem)
      cases block with
      | header header =>
          rw [List.cons_append, ofBlocks, hfirst,
            openWith_append (h header List.mem_cons_self)]
          rfl
      | _ => simp only [List.cons_append, ofBlocks, hfirst]

end Sectioning

open Sectioning (ofBlocks inOrder_ofBlocks mem_toBlocks) in
/-- Blocks in order are the sections of the sequence they unfold to. -/
theorem nestSections_unfolded {around : Option Header} {out : List Block}
    (h : Blocks.Outlined around out) : nestSections (Blocks.unfolded out) = out := by
  unfold nestSections
  induction out using Blocks.sectionInduction generalizing around with
  | nil => rfl
  | sectionOf header content blocks ihcontent ih =>
      have hcontent := ihcontent h.inside
      have hblocks := ih h.tail
      have hdeeper : ∀ t ∈ (ofBlocks (Blocks.unfolded content)).sections,
          header.level < t.header.level := by
        intro t ht
        have hmem : t.toBlock ∈ content := by
          rw [← hcontent]
          exact mem_toBlocks.mpr (Or.inr ⟨t, ht, rfl⟩)
        exact of_decide_eq_true (h.inside.here.holds t.toBlock hmem)
      have hlead : (ofBlocks (Blocks.unfolded blocks)).lead = [] := by
        refine List.eq_nil_iff_forall_not_mem.mpr fun block hmem => ?_
        have hplain := ((inOrder_ofBlocks (Blocks.isSection_unfolded blocks)).lead
          block hmem).1
        obtain ⟨inner, inside, rfl, -⟩ := h.here.behind block
          (by rw [← hblocks]; exact mem_toBlocks.mpr (Or.inl hmem))
        cases hplain
      have hothers : ∀ t ∈ (ofBlocks (Blocks.unfolded blocks)).sections,
          t.header.level ≤ header.level := by
        intro t ht
        obtain ⟨inner, inside, heq, hle⟩ := h.here.behind t.toBlock
          (by rw [← hblocks]; exact mem_toBlocks.mpr (Or.inr ⟨t, ht, rfl⟩))
        obtain ⟨rfl, -⟩ := Block.sectionOf.inj heq
        exact hle
      have hcut := Sectioning.ofBlocks_append hlead fun inner hinner t ht =>
        (hothers t ht).trans (Nat.le_of_lt (h.inside.lt_level inner hinner))
      rw [Blocks.unfolded_sectionOf, ofBlocks, hcut,
        Sectioning.openWith_append hothers, Sectioning.openWith_deeper hdeeper]
      rw [Sectioning.toBlocks, hlead] at hblocks
      show Block.sectionOf header _ :: _ = _
      rw [hcontent]
      exact congrArg (List.cons _) hblocks
  | plain block blocks hplain ih =>
      have hblocks := ih h.tail
      rw [Blocks.unfolded_plain hplain]
      cases block with
      | header header => exact absurd List.mem_cons_self (h.here.opened header)
      | sectionOf header content => cases hplain
      | _ => exact congrArg (List.cons _) hblocks

/-! ## Where a block stands -/

namespace Blocks

/-- A block that the same headers may hold has the same nearest one. -/
theorem Nearest.congr {block other : Block} {earlier : List Block}
    {owner : Option Nat} (h : Nearest block earlier owner)
    (hsame : ∀ header : Header, header.holds other = header.holds block) :
    Nearest other earlier owner := by
  cases h with
  | unowned hnone => exact .unowned fun header hmem => by rw [hsame, hnone header hmem]
  | owned hholds hafter =>
      exact .owned (by rw [hsame, hholds]) fun next hmem => by
        rw [hsame, hafter next hmem]

/-- More blocks change nothing unless one of them is a header that may hold
the block. -/
theorem Nearest.append {block : Block} {earlier more : List Block}
    {owner : Option Nat} (h : Nearest block earlier owner)
    (hmore : ∀ next, .header next ∈ more → next.holds block = false) :
    Nearest block (earlier ++ more) owner := by
  cases h with
  | unowned hnone =>
      exact .unowned fun header hmem =>
        (List.mem_append.mp hmem).elim (hnone header) (hmore header)
  | owned hholds hafter =>
      rw [List.append_assoc, List.cons_append]
      exact .owned hholds fun next hmem =>
        (List.mem_append.mp hmem).elim (hafter next) (hmore next)

/-- The blocks, read behind the `earlier` ones, belong to these headers. -/
inductive Reads : (earlier : List Block) → List Block → List (Option Nat) → Prop
  | nil {earlier : List Block} : Reads earlier [] []
  | cons {earlier blocks : List Block} {block : Block} {owner : Option Nat}
      {owners : List (Option Nat)} (h : Nearest block earlier owner)
      (hrest : Reads (earlier ++ [block]) blocks owners) :
      Reads earlier (block :: blocks) (owner :: owners)

theorem Reads.append {earlier first second : List Block}
    {owners owners' : List (Option Nat)} (h : Reads earlier first owners)
    (h' : Reads (earlier ++ first) second owners') :
    Reads earlier (first ++ second) (owners ++ owners') := by
  induction h with
  | nil => rwa [List.append_nil] at h'
  | cons hnearest hrest ih =>
      exact .cons hnearest (ih (by rwa [List.append_assoc]))

theorem Reads.nearest {earlier blocks : List Block} {owners : List (Option Nat)}
    (h : Reads earlier blocks owners) {place : Nat} {block : Block}
    (hat : blocks[place]? = some block) :
    ∃ owner, owners[place]? = some owner
      ∧ Nearest block (earlier ++ blocks.take place) owner := by
  induction h generalizing place with
  | nil => nomatch hat
  | @cons earlier blocks first owner owners hnearest hrest ih =>
      cases place with
      | zero =>
          obtain rfl := Option.some.inj hat
          exact ⟨owner, rfl, by rwa [List.take_zero, List.append_nil]⟩
      | succ place =>
          obtain ⟨owner, howner, hnext⟩ := ih hat
          refine ⟨owner, howner, ?_⟩
          rwa [List.append_assoc] at hnext

/-- In an outline every block stands under the nearest header that may hold
it, if the blocks at the top do. -/
theorem reads_owners {around : Option Header} {blocks earlier : List Block}
    {owner : Option Nat} (h : Outlined around blocks)
    (howner : ∀ block ∈ blocks, Nearest block earlier owner) :
    Reads earlier (unfolded blocks) (owners owner earlier.length blocks) := by
  induction blocks using sectionInduction generalizing around earlier owner with
  | nil => exact .nil
  | sectionOf header content blocks ihcontent ih =>
      rw [unfolded_sectionOf, owners_sectionOf]
      have hhere : Nearest (.header header) earlier owner :=
        (howner _ List.mem_cons_self).congr fun _ => rfl
      have hcontent : Reads (earlier ++ [.header header]) (unfolded content)
          (owners (some earlier.length) (earlier.length + 1) content) := by
        have hinside : ∀ block ∈ content,
            Nearest block (earlier ++ [.header header]) (some earlier.length) :=
          fun block hmem =>
            .owned (h.inside.here.holds block hmem) fun next hnext => by cases hnext
        have hreads := ihcontent h.inside hinside
        rwa [List.length_append] at hreads
      have hblocks : Reads (earlier ++ [.header header] ++ unfolded content)
          (unfolded blocks)
          (owners owner (earlier.length + ((unfolded content).length + 1)) blocks) := by
        have hbehind : ∀ block ∈ blocks,
            Nearest block (earlier ++ [.header header] ++ unfolded content) owner := by
          intro block hmem
          obtain ⟨inner, inside, rfl, hle⟩ := h.here.behind block hmem
          rw [List.append_assoc]
          refine (howner _ (List.mem_cons_of_mem _ hmem)).append fun next hnext => ?_
          have hlevel : header.level ≤ next.level := by
            rcases List.mem_cons.mp hnext with heq | hnext
            · rw [Block.header.inj heq]
            · exact Nat.le_of_lt (h.inside.lt_level next hnext)
          exact decide_eq_false (by omega)
        have hreads := ih h.tail hbehind
        have hlength : (earlier ++ [Block.header header] ++ unfolded content).length
            = earlier.length + ((unfolded content).length + 1) := by
          simp only [List.length_append, List.length_singleton]
          omega
        rwa [hlength] at hreads
      exact .cons hhere (hcontent.append hblocks)
  | plain block blocks hplain ih =>
      rw [unfolded_plain hplain, owners_plain hplain]
      have hlater : ∀ other ∈ blocks, Nearest other (earlier ++ [block]) owner := by
        intro other hmem
        refine (howner other (List.mem_cons_of_mem _ hmem)).append fun next hnext => ?_
        obtain rfl := List.mem_singleton.mp hnext
        exact absurd List.mem_cons_self (h.here.opened next)
      have hreads := ih h.tail hlater
      rw [List.length_append] at hreads
      exact .cons (howner block List.mem_cons_self) hreads

end Blocks

/-- A sequence without sections has exactly one outline: it is what grouping
into sections gives. In it every block stands under the nearest earlier
header that may hold it. -/
theorem nestSections_outlines {blocks : List Block}
    (h : ∀ block ∈ blocks, block.isSection = false) :
    (Blocks.unfolded (nestSections blocks) = blocks
      ∧ Blocks.Outlined none (nestSections blocks))
    ∧ (∀ out, Blocks.unfolded out = blocks → Blocks.Outlined none out →
        out = nestSections blocks)
    ∧ ∀ place block, blocks[place]? = some block →
        ∃ owner, (Blocks.owners none 0 (nestSections blocks))[place]? = some owner
          ∧ Blocks.Nearest block (blocks.take place) owner := by
  have hunfolded : Blocks.unfolded (nestSections blocks) = blocks := by
    rw [Blocks.unfolded_nestSections, Blocks.unfolded_eq_self h]
  have houtlined : Blocks.Outlined none (nestSections blocks) :=
    (Sectioning.inOrder_ofBlocks h).outlined fun header hnone => by cases hnone
  refine ⟨⟨hunfolded, houtlined⟩, fun out hout hordered => ?_, fun place block hat => ?_⟩
  · rw [← hout, nestSections_unfolded hordered]
  · have hstart : ∀ block ∈ nestSections blocks, Blocks.Nearest block [] none :=
      fun block _ => .unowned fun header hmem => nomatch hmem
    have hreads := Blocks.reads_owners houtlined hstart
    rw [hunfolded] at hreads
    exact hreads.nearest hat

/-- Levels that jump, with a level 0 in between. -/
def sailingNotes : List Block :=
  [.rule, .header ⟨[], none, 2⟩, .anchor "sails", .header ⟨[], none, 5⟩,
   .header ⟨[], none, 3⟩, .rule, .header ⟨[], none, 0⟩, .header ⟨[], none, 1⟩]

theorem nestSections_outlines_sailingNotes :
    (∀ block ∈ sailingNotes, block.isSection = false)
      ∧ Blocks.unfolded (nestSections sailingNotes) = sailingNotes
      ∧ Blocks.owners none 0 (nestSections sailingNotes)
        = [none, none, some 1, some 1, some 1, some 4, none, some 6] := by
  have h : ∀ block ∈ sailingNotes, block.isSection = false := by
    simp [sailingNotes, Block.isSection]
  exact ⟨h, (nestSections_outlines h).1.1, by decide⟩

end Crosslink
