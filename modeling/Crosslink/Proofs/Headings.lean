import Mathlib.Data.Finset.Dedup
import Mathlib.Data.Finset.Filter
import Mathlib.Data.Finset.Card
import Crosslink.Proofs.SectionTree

/-!
# Title and levels

What the first step of outlining makes of the top-level blocks is said by
`Blocks.Leveled`, with one rule for a sequence whose first header becomes
the title and one for every other. A header keeps its text, its place and
the id written for it, and a decoration stands for one level more than there
are decorations met before it (`decorationLevel`).

The walk over the blocks keeps a list of decorations instead. It holds the
decorations met so far in the order of their first appearance
(`Leveling.Met`), so that the place of a decoration in it counts those before
(`idxOf_eraseDups_eq_level`); this is the invariant of the walk
(`Leveling.Met.run`). The title has to be settled before, because the list
starts behind it (`Leveling.run_due`).
-/

namespace Crosslink

def Block.decoration? : Block → Option Decoration
  | .decoratedHeader h => some h.decoration
  | _ => none

/-- The decorations of the headers among the blocks, in order. -/
def Blocks.decorations (blocks : List Block) : List Decoration :=
  blocks.filterMap Block.decoration?

/-- One more than there are decorations whose first occurrence comes before
that of `decoration`. -/
def decorationLevel (decorations : List Decoration) (decoration : Decoration) :
    Nat :=
  (decorations.toFinset.filter fun other =>
    decorations.idxOf other < decorations.idxOf decoration).card + 1

/-- An id written for a header is kept. -/
def Keeps (written : Option String) (id : String) : Prop :=
  ∀ explicit, written = some explicit → id = explicit

/-- The title that a header becomes. -/
inductive Block.Promoted : Block → Title → Prop
  | header {header : Header} {id : String} (hid : Keeps header.id id) :
      Promoted (.header header) ⟨header.content, some id⟩
  | decoratedHeader {header : DecoratedHeader} {id : String}
      (hid : Keeps header.id id) :
      Promoted (.decoratedHeader header) ⟨header.content, some id⟩

/-- What becomes of a block that is not made the title. -/
inductive Block.Leveled (decorations : List Decoration) : Block → Block → Prop
  | header {header : Header} {id : String} (hid : Keeps header.id id) :
      Leveled decorations (.header header) (.header { header with id := some id })
  | decoratedHeader {header : DecoratedHeader} {id : String}
      (hid : Keeps header.id id) :
      Leveled decorations (.decoratedHeader header)
        (.header ⟨header.content, some id,
          decorationLevel decorations header.decoration⟩)
  | other {block : Block} (h : block.opensSection = false) :
      Leveled decorations block block

/-- The top-level blocks with title, levels and ids. The first header
becomes the title if one is asked for and not yet there, and is left out
where decorations are counted. -/
inductive Blocks.Leveled (firstHeaderAsTitle : Bool) :
    (blocks leveled : List Block) → Prop
  | promoted {before after leveled : List Block} {first : Block} {title : Title}
      (hflag : firstHeaderAsTitle = true)
      (hnew : ∀ title, .title title ∉ before ++ first :: after)
      (hbefore : ∀ block ∈ before, block.opensSection = false)
      (hfirst : first.Promoted title)
      (hafter : List.Forall₂ (Block.Leveled (decorations after)) after leveled) :
      Leveled firstHeaderAsTitle (before ++ first :: after)
        (before ++ .title title :: leveled)
  | kept {blocks leveled : List Block}
      (h : firstHeaderAsTitle = true → (∃ title, .title title ∈ blocks)
        ∨ ∀ block ∈ blocks, block.opensSection = false)
      (hblocks : List.Forall₂ (Block.Leveled (decorations blocks)) blocks leveled) :
      Leveled firstHeaderAsTitle blocks leveled

/-! ## Counting by first appearance -/

theorem mem_takeWhile_ne_iff {other decoration : Decoration} (ds : List Decoration) :
    other ∈ ds.takeWhile (· ≠ decoration)
      ↔ other ∈ ds ∧ ds.idxOf other < ds.idxOf decoration := by
  induction ds with
  | nil => simp
  | cons d ds ih =>
      by_cases hd : d = decoration
      · subst hd
        simp
      · by_cases hother : d = other
        · subst hother
          simp [hd, List.idxOf_cons_ne]
        · have hne : other ≠ d := fun h => hother h.symm
          simp only [ne_eq, hd, not_false_eq_true, decide_true,
            List.takeWhile_cons_of_pos, List.mem_cons, hne, false_or,
            List.idxOf_cons_ne _ hd, List.idxOf_cons_ne _ hother,
            Nat.succ_lt_succ_iff]
          exact ih

theorem eraseDups_concat (ds : List Decoration) (d : Decoration) :
    (ds ++ [d]).eraseDups = if d ∈ ds then ds.eraseDups else ds.eraseDups ++ [d] := by
  rw [List.eraseDups_append]
  by_cases h : d ∈ ds
  · simp [h, List.removeAll]
  · simp [h, List.removeAll, List.eraseDups_cons]

theorem length_eraseDups (ds : List Decoration) :
    ds.eraseDups.length = ds.toFinset.card := by
  induction ds using List.reverseRecOn with
  | nil => rfl
  | append_singleton ds d ih =>
      have hinsert : (ds ++ [d]).toFinset = insert d ds.toFinset := by
        ext other
        simp
      rw [eraseDups_concat, hinsert]
      by_cases h : d ∈ ds
      · rw [if_pos h, ih, Finset.insert_eq_of_mem (List.mem_toFinset.mpr h)]
      · rw [if_neg h, List.length_append, ih,
          Finset.card_insert_of_notMem (mt List.mem_toFinset.mp h)]
        rfl

section

variable {before : List Decoration} {d : Decoration} (h : d ∉ before)
  (after : List Decoration)

include h

/-- The list of first appearances has a decoration behind those met before
it. -/
theorem idxOf_eraseDups :
    (before ++ d :: after).eraseDups.idxOf d = before.eraseDups.length := by
  have hnew : (d :: after).removeAll before = d :: after.removeAll before := by
    simp [List.removeAll, h]
  rw [List.eraseDups_append, hnew, List.eraseDups_cons,
    List.idxOf_append_of_notMem (mt List.mem_eraseDups.mp h), List.idxOf_cons_self]
  rfl

theorem decorationLevel_eq :
    decorationLevel (before ++ d :: after) d = before.eraseDups.length + 1 := by
  have htake : (before ++ d :: after).takeWhile (· ≠ d) = before := by
    have hbefore : ∀ other ∈ before, decide (other ≠ d) = true :=
      fun other hother => decide_eq_true (ne_of_mem_of_not_mem hother h)
    rw [List.takeWhile_append_of_pos hbefore, List.takeWhile_cons_of_neg (by simp),
      List.append_nil]
  have hfilter : ((before ++ d :: after).toFinset.filter fun other =>
      (before ++ d :: after).idxOf other < (before ++ d :: after).idxOf d)
        = before.toFinset := by
    ext other
    rw [Finset.mem_filter, List.mem_toFinset, List.mem_toFinset,
      ← mem_takeWhile_ne_iff, htake]
  rw [decorationLevel, hfilter, length_eraseDups]

end

/-- What is met later does not change the level of a decoration. -/
theorem idxOf_eraseDups_eq_level (ds : List Decoration) (d : Decoration)
    (later : List Decoration) :
    ds.eraseDups.idxOf d + 1 = decorationLevel (ds ++ d :: later) d := by
  by_cases hmet : d ∈ ds
  · obtain ⟨before, after, rfl, hfirst⟩ := List.eq_append_cons_of_mem hmet
    rw [idxOf_eraseDups hfirst, List.append_assoc, List.cons_append,
      decorationLevel_eq hfirst]
  · rw [List.idxOf_eq_length (mt List.mem_eraseDups.mp hmet), decorationLevel_eq hmet]

/-! ## One block -/

namespace Leveling

/-- No title is due, and the decorations met are those of `ds`. -/
structure Met (s : Leveling) (ds : List Decoration) : Prop where
  settled : s.titlePending = false
  decorations : s.decorations = ds.eraseDups

theorem keeps_assign (s : Leveling) (explicit : Option String)
    (content : List Span) : Keeps explicit (s.assign explicit content).1 := by
  intro id hid
  rw [hid]
  rfl

theorem Met.assign {s : Leveling} {ds : List Decoration} (h : s.Met ds)
    (explicit : Option String) (content : List Span) :
    (s.assign explicit content).2.Met ds := by
  cases explicit <;> exact ⟨h.settled, h.decorations⟩

theorem Met.level {s : Leveling} {ds : List Decoration} (h : s.Met ds)
    (d : Decoration) (later : List Decoration) :
    (s.level d).1 = decorationLevel (ds ++ d :: later) d
      ∧ (s.level d).2.Met (ds ++ [d]) := by
  have hlevel := idxOf_eraseDups_eq_level ds d later
  rw [Leveling.level, h.decorations]
  by_cases hmet : d ∈ ds
  · rw [if_pos (List.mem_eraseDups.mpr hmet)]
    exact ⟨hlevel, h.settled, by rw [eraseDups_concat, if_pos hmet, h.decorations]⟩
  · have hnew := mt List.mem_eraseDups.mp hmet
    rw [List.idxOf_eq_length hnew] at hlevel
    rw [if_neg hnew]
    exact ⟨hlevel, h.settled, by rw [eraseDups_concat, if_neg hmet]⟩

/-- A block that is not made the title is leveled by the decorations before
it, and its own joins them. -/
theorem Met.step {s : Leveling} {ds : List Decoration} (h : s.Met ds)
    (block : Block) (later : List Decoration) :
    block.Leveled (ds ++ block.decoration?.toList ++ later) (s.step block).1
      ∧ (s.step block).2.Met (ds ++ block.decoration?.toList) := by
  have hother : block.opensSection = false →
      block.Leveled (ds ++ block.decoration?.toList ++ later) block
        ∧ s.Met (ds ++ block.decoration?.toList) := by
    intro hplain
    have hnone : block.decoration? = none := by
      cases block with
      | decoratedHeader header => cases hplain
      | _ => rfl
    rw [hnone, Option.toList_none, List.append_nil]
    exact ⟨.other hplain, h⟩
  cases block with
  | header header =>
      simp only [Leveling.step, h.settled, Bool.false_eq_true, if_false]
      refine ⟨.header (keeps_assign s header.id header.content), ?_⟩
      rw [show (Block.header header).decoration? = none from rfl, Option.toList_none,
        List.append_nil]
      exact h.assign header.id header.content
  | decoratedHeader header =>
      obtain ⟨hlevel, hmet⟩ := h.level header.decoration later
      simp only [Leveling.step, h.settled, Bool.false_eq_true, if_false, hlevel]
      refine ⟨?_, hmet.assign header.id header.content⟩
      have hkeeps := keeps_assign (s.level header.decoration).2 header.id header.content
      have hleveled : Block.Leveled (ds ++ header.decoration :: later)
          (.decoratedHeader header) _ := .decoratedHeader hkeeps
      rwa [List.append_cons] at hleveled ⊢
  | _ => exact hother rfl

/-! ## The walk -/

/-- Behind the title every block is leveled by the decorations of all. -/
theorem Met.run {s : Leveling} {ds : List Decoration} (h : s.Met ds)
    (blocks : List Block) :
    List.Forall₂ (Block.Leveled (ds ++ Blocks.decorations blocks)) blocks
      (s.run blocks) := by
  induction blocks generalizing s ds with
  | nil => exact .nil
  | cons block blocks ih =>
      have hcons : ds ++ Blocks.decorations (block :: blocks)
          = ds ++ block.decoration?.toList ++ Blocks.decorations blocks := by
        rw [Blocks.decorations, List.filterMap_cons, List.append_assoc]
        cases block.decoration? <;> rfl
      obtain ⟨hblock, hmet⟩ := h.step block (Blocks.decorations blocks)
      rw [hcons]
      exact .cons hblock (ih hmet)

theorem promoted_step {s : Leveling} (hdue : s.titlePending = true)
    (hnone : s.decorations = []) {first : Block} (hfirst : first.opensSection = true) :
    ∃ title, first.Promoted title ∧ (s.step first).1 = .title title
      ∧ (s.step first).2.Met [] := by
  have hmet : Met { s with titlePending := false } [] := ⟨rfl, hnone⟩
  cases first with
  | header header =>
      simp only [Leveling.step, hdue, if_true]
      exact ⟨_, .header (keeps_assign _ header.id header.content), rfl,
        hmet.assign header.id header.content⟩
  | decoratedHeader header =>
      simp only [Leveling.step, hdue, if_true]
      exact ⟨_, .decoratedHeader (keeps_assign _ header.id header.content), rfl,
        hmet.assign header.id header.content⟩
  | _ => cases hfirst

/-- While a title is due, blocks pass unchanged up to the first header. -/
theorem run_due {s : Leveling} (hdue : s.titlePending = true)
    (hnone : s.decorations = []) (blocks : List Block) :
    ((∀ block ∈ blocks, block.opensSection = false) ∧ s.run blocks = blocks)
      ∨ ∃ before first after title leveled,
        blocks = before ++ first :: after
          ∧ (∀ block ∈ before, block.opensSection = false)
          ∧ first.Promoted title
          ∧ List.Forall₂ (Block.Leveled (Blocks.decorations after)) after leveled
          ∧ s.run blocks = before ++ .title title :: leveled := by
  induction blocks with
  | nil => exact Or.inl ⟨List.forall_mem_nil _, rfl⟩
  | cons block blocks ih =>
      by_cases hblock : block.opensSection = true
      · obtain ⟨title, hfirst, htitle, hmet⟩ := promoted_step hdue hnone hblock
        refine Or.inr ⟨[], block, blocks, title, _, rfl, List.forall_mem_nil _, hfirst,
          hmet.run blocks, ?_⟩
        show (s.step block).1 :: (s.step block).2.run blocks = _
        rw [htitle]
        rfl
      · have hplain := Bool.not_eq_true _ ▸ hblock
        have hrun : s.run (block :: blocks) = block :: s.run blocks := by
          cases block with
          | header header => cases hplain
          | decoratedHeader header => cases hplain
          | _ => rfl
        rcases ih with ⟨hblocks, hsame⟩
          | ⟨before, first, after, title, leveled, rfl, hbefore, hfirst, hafter, heq⟩
        · exact Or.inl ⟨List.forall_mem_cons.mpr ⟨hplain, hblocks⟩, by rw [hrun, hsame]⟩
        · exact Or.inr ⟨block :: before, first, after, title, leveled, rfl,
            List.forall_mem_cons.mpr ⟨hplain, hbefore⟩, hfirst, hafter,
            by rw [hrun, heq]; rfl⟩

end Leveling

/-! ## All top-level blocks -/

theorem Blocks.title?_eq_none_iff {blocks : List Block} :
    Blocks.title? blocks = none ↔ ∀ title, .title title ∉ blocks := by
  induction blocks with
  | nil => exact ⟨fun _ _ hmem => (nomatch hmem), fun _ => rfl⟩
  | cons block blocks ih =>
      cases block with
      | title title =>
          exact ⟨fun h => (nomatch h), fun h => absurd List.mem_cons_self (h title)⟩
      | _ => simp [Blocks.title?, ih]

theorem leveled_levelHeaders (firstHeaderAsTitle : Bool) (blocks : List Block) :
    Blocks.Leveled firstHeaderAsTitle blocks
      (levelHeaders firstHeaderAsTitle blocks) := by
  rw [levelHeaders]
  cases hdue : firstHeaderAsTitle && (Blocks.title? blocks).isNone with
  | true =>
      obtain ⟨rfl, hnone⟩ := (Bool.and_eq_true _ _).mp hdue
      have hnew := Blocks.title?_eq_none_iff.mp (Option.isNone_iff_eq_none.mp hnone)
      rcases Leveling.run_due (s := ⟨true, [], Blocks.explicitIds blocks⟩) rfl rfl blocks with
        ⟨hblocks, hsame⟩
        | ⟨before, first, after, title, leveled, rfl, hbefore, hfirst, hafter, heq⟩
      · refine .kept (fun _ => Or.inr hblocks) ?_
        rw [hsame]
        exact List.forall₂_same.mpr fun block hmem => .other (hblocks block hmem)
      · rw [heq]
        exact .promoted rfl hnew hbefore hfirst hafter
  | false =>
      have hmet : Leveling.Met ⟨false, [], Blocks.explicitIds blocks⟩ [] := ⟨rfl, rfl⟩
      refine .kept (fun hflag => Or.inl ?_)
        (Leveling.Met.run hmet blocks)
      rw [hflag, Bool.true_and] at hdue
      by_contra hnew
      have hnone := Blocks.title?_eq_none_iff.mpr (not_exists.mp hnew)
      rw [hnone] at hdue
      cases hdue

/-- What stands before the first header stays where it is. -/
theorem Sectioning.takeWhile_prefix_toBlocks (blocks : List Block) :
    blocks.takeWhile (fun block => !block.opensSection)
      <+: (Sectioning.ofBlocks blocks).toBlocks := by
  have hlead : blocks.takeWhile (fun block => !block.opensSection)
      <+: (Sectioning.ofBlocks blocks).lead := by
    induction blocks with
    | nil => exact List.nil_prefix
    | cons block blocks ih =>
        cases block with
        | header header => exact List.nil_prefix
        | decoratedHeader header => exact List.nil_prefix
        | _ => exact List.cons_prefix_cons.mpr ⟨rfl, ih⟩
  exact hlead.trans (List.prefix_append _ _)

/-- Outlining promotes the first header if it has to, gives each decoration
its level by first appearance and changes no other block. Each header opens a
section for some of the blocks after it, and every block that is no header, a
section from before as well, stands in the outline unchanged. Read in order, the
outline is the leveled sequence, and a title and all before it stay in their
places. Outlining once more changes nothing. -/
theorem buildOutline_headings (firstHeaderAsTitle : Bool) (blocks : List Block) :
    Blocks.Leveled firstHeaderAsTitle blocks (levelHeaders firstHeaderAsTitle blocks)
      ∧ Blocks.Grouped (levelHeaders firstHeaderAsTitle blocks)
          (buildOutline firstHeaderAsTitle blocks)
      ∧ Blocks.unfolded (buildOutline firstHeaderAsTitle blocks)
        = Blocks.unfolded (levelHeaders firstHeaderAsTitle blocks)
      ∧ (levelHeaders firstHeaderAsTitle blocks).takeWhile
          (fun block => !block.opensSection)
        <+: buildOutline firstHeaderAsTitle blocks
      ∧ buildOutline firstHeaderAsTitle (buildOutline firstHeaderAsTitle blocks)
        = buildOutline firstHeaderAsTitle blocks :=
  ⟨leveled_levelHeaders firstHeaderAsTitle blocks,
    Blocks.grouped_nestSections _,
    Blocks.unfolded_nestSections _,
    Sectioning.takeWhile_prefix_toBlocks _,
    Blocks.buildOutline_eq_self firstHeaderAsTitle
      (Blocks.not_opensSection_buildOutline firstHeaderAsTitle blocks)⟩

end Crosslink
