import Mathlib.Data.List.Nodup
import Mathlib.Data.List.Perm.Subperm
import Crosslink.Proofs.Numbering
import Crosslink.Proofs.Outline

/-!
# Derived ids

A header without an id gets one from its text, the first candidate that is
not in use (`freshId_eq`). The ids so derived differ from each other and from
every explicit id that outlining looks at beforehand
(`Leveling.newIds_run`), and the outline of a document declares them besides
the anchors that are written in it (`Blocks.declaredAnchors_buildOutline`).
But outlining looks for explicit ids in quotes and sections only, whereas
anchors also count in the bodies of footnotes, of citations and of invalid
blocks (`Blocks.unseenAnchors`). So an anchor of an outline is repeated if it
is written twice, or if it is derived and written where nobody looked
(`Blocks.isDuplicate_buildOutline`); `boathouse` shows the latter.
-/

namespace Crosslink

/-! ## The first candidate out of use -/

theorem candidateId_injective (base : String) :
    Function.Injective (candidateId base) := by
  have hlong : ∀ k : Nat, candidateId base 0 ≠ candidateId base (k + 1) := by
    intro k heq
    have hlength := congrArg String.length heq
    have hhyphen : "-".length = 1 := rfl
    simp only [candidateId, String.length_append, hhyphen] at hlength
    omega
  intro m n h
  cases m with
  | zero =>
      cases n with
      | zero => rfl
      | succ n => exact absurd h (hlong n)
  | succ m =>
      cases n with
      | zero => exact absurd h.symm (hlong m)
      | succ n => exact Nat.repr_injective ((String.append_right_inj (base ++ "-")).mp h)

/-- The search passes candidates in use only, and stops at one that is not
unless it has run out of room. -/
theorem freshFrom_eq (used : List String) (base : String) (room k : Nat) :
    ∃ n, freshFrom used base room k = candidateId base n
      ∧ k ≤ n ∧ (∀ i, k ≤ i → i < n → candidateId base i ∈ used)
      ∧ (candidateId base n ∈ used → n = k + room) := by
  induction room generalizing k with
  | zero => exact ⟨k, rfl, Nat.le_refl k, fun i hk hn => by omega, fun _ => rfl⟩
  | succ room ih =>
      rw [freshFrom]
      split
      · rename_i hused
        obtain ⟨n, heq, hle, hpassed, hfull⟩ := ih (k + 1)
        refine ⟨n, heq, by omega, fun i hk hn => ?_, fun h => by have := hfull h; omega⟩
        rcases Nat.eq_or_lt_of_le hk with rfl | hlt
        · exact List.contains_iff_mem.mp hused
        · exact hpassed i hlt hn
      · rename_i hfree
        exact ⟨k, rfl, Nat.le_refl k, fun i hk hn => by omega,
          fun h => absurd (List.contains_iff_mem.mpr h) hfree⟩

/-- There are no more candidates in use than ids in use. -/
theorem le_length_of_candidates {used : List String} {base : String} {n : Nat}
    (h : ∀ i < n, candidateId base i ∈ used) : n ≤ used.length := by
  have hnodup : ((List.range n).map (candidateId base)).Nodup :=
    List.nodup_range.map (candidateId_injective base)
  have hsubset : (List.range n).map (candidateId base) ⊆ used := by
    intro id hid
    obtain ⟨i, hi, rfl⟩ := List.mem_map.mp hid
    exact h i (List.mem_range.mp hi)
  simpa using (hnodup.subperm hsubset).length_le

/-- A fresh id is not in use, and every earlier candidate is. -/
theorem freshId_eq (used : List String) (base : String) :
    ∃ n, freshId used base = candidateId base n ∧ candidateId base n ∉ used
      ∧ ∀ i < n, candidateId base i ∈ used := by
  obtain ⟨n, heq, -, hpassed, hfull⟩ := freshFrom_eq used base used.length 0
  refine ⟨n, heq, fun hused => ?_, fun i hn => hpassed i (Nat.zero_le i) hn⟩
  -- out of room: one more candidate than there are used ids is in use
  have hn := hfull hused
  have hfew : n + 1 ≤ used.length := le_length_of_candidates fun i hi => by
    rcases Nat.eq_or_lt_of_le (Nat.lt_succ_iff.mp hi) with rfl | hlt
    · exact hused
    · exact hpassed i (Nat.zero_le i) hlt
  omega

theorem freshId_notMem (used : List String) (base : String) :
    freshId used base ∉ used := by
  obtain ⟨n, heq, hfree, -⟩ := freshId_eq used base
  rw [heq]
  exact hfree

/-! ## How a derived id starts -/

/-- The id is one that a header can get from its text. -/
def IsSlug (id : String) : Prop :=
  ∃ (content : List Span) (k : Nat), id = candidateId (slugBase content) k

theorem isSlug_freshId (used : List String) (content : List Span) :
    IsSlug (freshId used (slugBase content)) := by
  obtain ⟨k, heq, -⟩ := freshId_eq used (slugBase content)
  exact ⟨content, k, heq⟩

/-- Before the first letter or number nothing is copied. -/
theorem head?_hyphenate (cs : List Char) :
    ∀ c ∈ (hyphenate false cs).head?, Unicode.isAlphanumeric c = true := by
  induction cs with
  | nil => exact fun c hc => nomatch hc
  | cons first cs ih =>
      rw [hyphenate]
      by_cases hfirst : Unicode.isAlphanumeric first = true
      · intro c hc
        rw [if_pos hfirst] at hc
        rwa [← Option.some.inj hc]
      · rw [if_neg hfirst, Bool.false_and, if_neg Bool.false_ne_true]
        exact ih

/-- The text that a derived id starts from starts with a letter or number. -/
theorem head?_slugBase (content : List Span) :
    ∃ c, (slugBase content).toList.head? = some c
      ∧ Unicode.isAlphanumeric c = true := by
  unfold slugBase
  dsimp only
  split
  · exact ⟨'s', rfl, by decide⟩
  · rename_i hne
    cases hhead : (slugify (Spans.plainText content)).toList.head? with
    | none =>
        have hempty := List.head?_eq_none_iff.mp hhead
        exact absurd (String.toList_eq_nil_iff.mp hempty) hne
    | some c =>
        refine ⟨c, rfl, ?_⟩
        rw [slugify, String.toList_ofList] at hhead
        exact head?_hyphenate _ c hhead

/-- So it does itself. -/
theorem IsSlug.head? {id : String} (h : IsSlug id) :
    ∃ c, id.toList.head? = some c ∧ Unicode.isAlphanumeric c = true := by
  obtain ⟨content, k, rfl⟩ := h
  obtain ⟨c, hhead, hc⟩ := head?_slugBase content
  refine ⟨c, ?_, hc⟩
  cases k with
  | zero => exact hhead
  | succ k =>
      rw [candidateId, String.toList_append, String.toList_append, List.append_assoc,
        List.head?_append, hhead]
      rfl

/-! ## Anchors of a document and of its outline -/

/-- The anchors that a block declares, those inside included. -/
def Block.declaredAnchors (block : Block) : List String :=
  block.declarations.filterMap Declaration.anchor?

/-- The anchors that the blocks of a document declare, each as often as it is
declared. -/
def Blocks.declaredAnchors (blocks : List Block) : List String :=
  blocks.flatMap Block.declaredAnchors

/-- Outlining gives the block an id of its own making. -/
def Block.lacksId : Block → Bool
  | .header h => h.id.isNone
  | .decoratedHeader h => h.id.isNone
  | _ => false

/-- The anchors written in a top-level block of a document. A decorated
header is one of them, as outlining makes a header or the title of it. -/
def Block.writtenAnchors : Block → List String
  | .decoratedHeader h => h.id.toList
  | block => block.declaredAnchors

/-- The anchors that carry their id explicitly, at any depth. -/
def Blocks.writtenAnchors (blocks : List Block) : List String :=
  blocks.flatMap Block.writtenAnchors

/-- The ids of headings that had none before their levels were settled. -/
def Blocks.newIds (before after : List Block) : List String :=
  (before.zip after).flatMap fun (block, out) =>
    if block.lacksId then out.declaredAnchors else []

theorem Blocks.newIds_cons (block out : Block) (blocks outs : List Block) :
    Blocks.newIds (block :: blocks) (out :: outs)
      = (if block.lacksId then out.declaredAnchors else []) ++ Blocks.newIds blocks outs :=
  rfl

/-- The ids that outlining derives from the text of headers. -/
def Blocks.derivedIds (firstHeaderAsTitle : Bool) (blocks : List Block) :
    List String :=
  Blocks.newIds blocks (levelHeaders firstHeaderAsTitle blocks)

namespace Leveling

/-- What becomes of the ids in use and of the anchors of a block: a heading
without an id gets one that is not in use yet, all else keeps its anchors. -/
inductive Names (s : Leveling) (block out : Block) (s' : Leveling) : Prop
  | kept (hlacks : block.lacksId = false) (hused : s'.used = s.used)
      (hanchors : out.declaredAnchors = block.writtenAnchors) : Names s block out s'
  | derived {id : String} (hlacks : block.lacksId = true)
      (hwritten : block.writtenAnchors = []) (hfresh : id ∉ s.used)
      (hused : s'.used = id :: s.used) (hanchors : out.declaredAnchors = [id])
      (hslug : IsSlug id) : Names s block out s'

/-- A heading that declares what it is assigned. -/
theorem names_assign {s s' : Leveling} (s₀ : Leveling) {block out : Block}
    {explicit : Option String} {content : List Span}
    (hlacks : block.lacksId = explicit.isNone)
    (hwritten : block.writtenAnchors = explicit.toList) (hbefore : s₀.used = s.used)
    (hout : out.declaredAnchors = [(s₀.assign explicit content).1])
    (hafter : s'.used = (s₀.assign explicit content).2.used) :
    s.Names block out s' := by
  cases explicit with
  | some id => exact .kept hlacks (hafter.trans hbefore) (hout.trans hwritten.symm)
  | none =>
      refine .derived hlacks hwritten ?_ (hafter.trans ?_) hout ?_
      · exact hbefore ▸ freshId_notMem _ _
      · exact congrArg (_ :: ·) hbefore
      · exact isSlug_freshId s₀.used content

theorem used_level (s : Leveling) (decoration : Decoration) :
    (s.level decoration).2.used = s.used := by
  unfold level
  split <;> rfl

theorem names_step (s : Leveling) (block : Block) :
    s.Names block (s.step block).1 (s.step block).2 := by
  cases block with
  | header h =>
      have hwritten : (Block.header h).writtenAnchors = h.id.toList := by
        obtain ⟨content, explicit, level⟩ := h
        cases explicit <;> rfl
      rw [step]
      split
      · exact names_assign { s with titlePending := false } rfl hwritten rfl rfl rfl
      · exact names_assign s rfl hwritten rfl rfl rfl
  | decoratedHeader h =>
      rw [step]
      split
      · exact names_assign { s with titlePending := false } rfl rfl rfl rfl rfl
      · exact names_assign (s.level h.decoration).2 rfl rfl
          (s.used_level h.decoration) rfl rfl
  | _ => exact .kept rfl rfl rfl

/-- The ids derived on the way are new, and differ from each other. -/
theorem newIds_run (s : Leveling) (blocks : List Block) :
    (Blocks.newIds blocks (s.run blocks)).Nodup
      ∧ ∀ id ∈ Blocks.newIds blocks (s.run blocks), id ∉ s.used := by
  induction blocks generalizing s with
  | nil => exact ⟨List.nodup_nil, fun id hid => absurd hid List.not_mem_nil⟩
  | cons block blocks ih =>
      obtain ⟨hnodup, hnew⟩ := ih (s.step block).2
      rw [run, Blocks.newIds_cons]
      cases s.names_step block with
      | kept hlacks hused hanchors =>
          rw [hused] at hnew
          simpa [hlacks] using ⟨hnodup, hnew⟩
      | derived hlacks hwritten hfresh hused hanchors hslug =>
          rw [hused] at hnew
          simp only [hlacks, hanchors, if_true, List.singleton_append]
          refine ⟨List.nodup_cons.mpr ⟨fun hid => hnew _ hid List.mem_cons_self, hnodup⟩,
            List.forall_mem_cons.mpr ⟨hfresh, fun id hid hmem => ?_⟩⟩
          exact hnew id hid (List.mem_cons_of_mem _ hmem)

theorem isSlug_newIds (s : Leveling) (blocks : List Block) :
    ∀ id ∈ Blocks.newIds blocks (s.run blocks), IsSlug id := by
  induction blocks generalizing s with
  | nil => exact fun id hid => absurd hid List.not_mem_nil
  | cons block blocks ih =>
      have hrest := ih (s.step block).2
      rw [run, Blocks.newIds_cons]
      cases s.names_step block with
      | kept hlacks hused hanchors => simpa [hlacks] using hrest
      | derived hlacks hwritten hfresh hused hanchors hslug =>
          simpa [hlacks, hanchors] using ⟨hslug, hrest⟩

/-- The walk adds the derived ids to the anchors written in the blocks. -/
theorem declaredAnchors_run (s : Leveling) (blocks : List Block) :
    (Blocks.declaredAnchors (s.run blocks)).Perm
      (Blocks.writtenAnchors blocks ++ Blocks.newIds blocks (s.run blocks)) := by
  induction blocks generalizing s with
  | nil => exact .nil
  | cons block blocks ih =>
      have hrest := ih (s.step block).2
      rw [run, Blocks.newIds_cons, Blocks.declaredAnchors, List.flatMap_cons,
        Blocks.writtenAnchors, List.flatMap_cons, List.append_assoc]
      cases s.names_step block with
      | kept hlacks hused hanchors =>
          simp only [hlacks, hanchors, Bool.false_eq_true, if_false, List.nil_append]
          exact hrest.append_left _
      | derived hlacks hwritten hfresh hused hanchors hslug =>
          simp only [hlacks, hanchors, hwritten, if_true, List.nil_append]
          exact (hrest.cons _).trans List.perm_middle.symm

end Leveling

namespace Blocks

theorem declarations_eq_flatMap (blocks : List Block) :
    declarations blocks = blocks.flatMap Block.declarations := by
  induction blocks with
  | nil => rfl
  | cons block blocks ih => rw [declarations, List.flatMap_cons, ih]

theorem filterMap_declarations (blocks : List Block) :
    (declarations blocks).filterMap Declaration.anchor? = declaredAnchors blocks := by
  rw [declarations_eq_flatMap, List.filterMap_flatMap]
  rfl

end Blocks

namespace Block

/-! What the anchors of a block are, kind by kind. -/

theorem declaredAnchors_of_anchors (explicit : Option String) :
    (Declaration.anchors explicit).filterMap Declaration.anchor? = explicit.toList := by
  cases explicit <;> rfl

@[simp] theorem declaredAnchors_header (h : Header) :
    (Block.header h).declaredAnchors = h.id.toList := declaredAnchors_of_anchors h.id

@[simp] theorem declaredAnchors_title (t : Title) :
    (Block.title t).declaredAnchors = t.id.toList := declaredAnchors_of_anchors t.id

@[simp] theorem declaredAnchors_sectionOf (h : Header) (content : List Block) :
    (Block.sectionOf h content).declaredAnchors
      = h.id.toList ++ Blocks.declaredAnchors content := by
  rw [declaredAnchors, declarations, List.filterMap_append, declaredAnchors_of_anchors,
    Blocks.filterMap_declarations]

@[simp] theorem declaredAnchors_quoted (content : List Block) :
    (Block.quoted content).declaredAnchors = Blocks.declaredAnchors content :=
  Blocks.filterMap_declarations content

@[simp] theorem declaredAnchors_citation (label : String) (i : Option String)
    (content : List Block) :
    (Block.citation label i content).declaredAnchors
      = Blocks.declaredAnchors content :=
  Blocks.filterMap_declarations content

@[simp] theorem declaredAnchors_footnoteDefinition (label : FootnoteLabel)
    (content : List Block) :
    (Block.footnoteDefinition label content).declaredAnchors
      = Blocks.declaredAnchors content :=
  Blocks.filterMap_declarations content

@[simp] theorem declaredAnchors_footnote (i label : String) (content : List Block) :
    (Block.footnote i label content).declaredAnchors
      = Blocks.declaredAnchors content :=
  Blocks.filterMap_declarations content

@[simp] theorem declaredAnchors_invalid (fallback : Block) (problem : Problem) :
    (Block.invalid fallback problem).declaredAnchors
      = Blocks.declaredAnchors fallback.nestedContent := by
  rw [declaredAnchors, declarations, nestedDeclarations_eq,
    Blocks.filterMap_declarations]

@[simp] theorem declaredAnchors_linkDefinition (definition : LinkDefinition) :
    (Block.linkDefinition definition).declaredAnchors = [] := by
  rw [declaredAnchors, declarations, Declaration.ofDefinition]
  split <;> rfl

end Block

namespace Blocks

theorem declaredAnchors_nestSections (blocks : List Block) :
    declaredAnchors (nestSections blocks) = declaredAnchors blocks := by
  refine (Blocks.grouped_nestSections blocks).flatMap_eq fun header content => ?_
  rw [Block.declaredAnchors, Block.declarations, List.filterMap_append,
    filterMap_declarations]
  rfl

/-- The outline of a document declares the anchors written in it, and besides
them the derived ids. -/
theorem declaredAnchors_buildOutline (flag : Bool) (blocks : List Block) :
    (declaredAnchors (buildOutline flag blocks)).Perm
      (writtenAnchors blocks ++ derivedIds flag blocks) := by
  rw [buildOutline, declaredAnchors_nestSections]
  exact Leveling.declaredAnchors_run _ blocks

end Blocks

/-! ## Anchors where outlining does not look -/

mutual

/-- The anchors in the bodies of citations, footnotes and invalid blocks:
they count, but are not among `explicitIds`. -/
def Block.unseenAnchors : Block → List String
  | .citation _ _ content => Blocks.declaredAnchors content
  | .footnoteDefinition _ content => Blocks.declaredAnchors content
  | .footnote _ _ content => Blocks.declaredAnchors content
  | .invalid fallback _ => Blocks.declaredAnchors fallback.nestedContent
  | .quoted content => Blocks.unseenAnchors content
  | .sectionOf _ content => Blocks.unseenAnchors content
  | _ => []

def Blocks.unseenAnchors : List Block → List String
  | [] => []
  | block :: blocks => block.unseenAnchors ++ Blocks.unseenAnchors blocks

end

theorem Blocks.declaredAnchors_cons (block : Block) (blocks : List Block) :
    Blocks.declaredAnchors (block :: blocks)
      = block.declaredAnchors ++ Blocks.declaredAnchors blocks := rfl

mutual

theorem Block.mem_declaredAnchors {i : String} : ∀ block : Block,
    i ∈ block.declaredAnchors → i ∈ block.explicitIds ∨ i ∈ block.unseenAnchors
  | .sectionOf h content, hmem => by
      rw [Block.declaredAnchors_sectionOf, List.mem_append] at hmem
      rw [Block.explicitIds, Block.unseenAnchors, List.mem_append, or_assoc]
      exact hmem.imp_right (Blocks.mem_declaredAnchors content)
  | .quoted content, hmem => by
      rw [Block.declaredAnchors_quoted] at hmem
      exact Blocks.mem_declaredAnchors content hmem
  | .header h, hmem => Or.inl (by rwa [Block.declaredAnchors_header] at hmem)
  | .title t, hmem => Or.inl (by rwa [Block.declaredAnchors_title] at hmem)
  | .anchor _, hmem => Or.inl hmem
  | .citation _ _ _, hmem | .footnoteDefinition _ _, hmem | .footnote _ _ _, hmem
  | .invalid _ _, hmem => Or.inr (by simpa [Block.unseenAnchors] using hmem)
  | .linkDefinition _, hmem => by
      rw [Block.declaredAnchors_linkDefinition] at hmem
      nomatch hmem
  | .paragraph _, hmem | .codeBlock _ _, hmem | .rule, hmem | .verbatim _ _, hmem
  | .decoratedHeader _, hmem | .linkAlias _, hmem | .reference _ _, hmem => nomatch hmem

/-- Every anchor is among the explicit ids or stands where they are not
looked for. -/
theorem Blocks.mem_declaredAnchors {i : String} : ∀ blocks : List Block,
    i ∈ Blocks.declaredAnchors blocks →
      i ∈ Blocks.explicitIds blocks ∨ i ∈ Blocks.unseenAnchors blocks
  | [], hmem => nomatch hmem
  | block :: blocks, hmem => by
      rw [Blocks.explicitIds, Blocks.unseenAnchors, List.mem_append, List.mem_append,
        or_or_or_comm]
      exact (List.mem_append.mp hmem).imp (Block.mem_declaredAnchors block)
        (Blocks.mem_declaredAnchors blocks)

end

mutual

theorem Block.unseenAnchors_subset : ∀ block : Block,
    block.unseenAnchors ⊆ block.declaredAnchors
  | .sectionOf _ content => by
      rw [Block.declaredAnchors_sectionOf]
      exact List.subset_append_of_subset_right _ (Blocks.unseenAnchors_subset content)
  | .quoted content => by
      rw [Block.declaredAnchors_quoted]
      exact Blocks.unseenAnchors_subset content
  | .citation _ _ _ | .footnoteDefinition _ _ | .footnote _ _ _ | .invalid _ _ => by
      simp [Block.unseenAnchors]
  | .header _ | .title _ | .anchor _ | .paragraph _ | .codeBlock _ _ | .rule
  | .verbatim _ _ | .decoratedHeader _ | .linkDefinition _ | .linkAlias _
  | .reference _ _ => List.nil_subset _

theorem Blocks.unseenAnchors_subset : ∀ blocks : List Block,
    Blocks.unseenAnchors blocks ⊆ Blocks.declaredAnchors blocks
  | [] => List.nil_subset _
  | block :: blocks => by
      intro i hmem
      rw [Blocks.declaredAnchors_cons]
      exact List.mem_append.mpr ((List.mem_append.mp hmem).imp
        (fun h => Block.unseenAnchors_subset block h)
        (fun h => Blocks.unseenAnchors_subset blocks h))

end

namespace Blocks

/-- An anchor is written where outlining looks for it or where it does not. -/
theorem mem_writtenAnchors {id : String} {blocks : List Block}
    (hmem : id ∈ writtenAnchors blocks) :
    id ∈ explicitIds blocks ∨ id ∈ unseenAnchors blocks := by
  induction blocks with
  | nil => nomatch hmem
  | cons block blocks ih =>
      rw [explicitIds, unseenAnchors, List.mem_append, List.mem_append, or_or_or_comm]
      refine (List.mem_append.mp hmem).imp (fun hblock => ?_) ih
      cases block with
      | decoratedHeader h => exact Or.inl hblock
      | _ => exact Block.mem_declaredAnchors _ hblock

theorem mem_writtenAnchors_of_unseen {id : String} {blocks : List Block}
    (hmem : id ∈ unseenAnchors blocks) : id ∈ writtenAnchors blocks := by
  induction blocks with
  | nil => nomatch hmem
  | cons block blocks ih =>
      refine List.mem_append.mpr ((List.mem_append.mp hmem).imp (fun hblock => ?_) ih)
      cases block with
      | decoratedHeader h => nomatch hblock
      | _ => exact Block.unseenAnchors_subset _ hblock

/-- An anchor is repeated in the index of a document that declares it more
than once. -/
theorem isDuplicate_build (blocks : List Block) (id : String) :
    (DocumentIndex.build blocks).anchors.isDuplicate id = true
      ↔ 2 ≤ (declaredAnchors blocks).count id := by
  rw [Namespace.isDuplicate_iff, DocumentIndex.build, DocumentIndex.ofDeclarations,
    Namespace.length_values_ofNames, filterMap_declarations]

/-- The ids derived for a document differ from each other and from every id
that outlining looks at; an anchor of the outline is repeated exactly if it
is written twice, or derived and written where outlining does not look. -/
theorem isDuplicate_buildOutline (flag : Bool) (blocks : List Block) :
    (derivedIds flag blocks).Nodup
      ∧ (∀ id ∈ derivedIds flag blocks, id ∉ explicitIds blocks)
      ∧ (declaredAnchors (buildOutline flag blocks)).Perm
          (writtenAnchors blocks ++ derivedIds flag blocks)
      ∧ ∀ id : String,
        (DocumentIndex.build (buildOutline flag blocks)).anchors.isDuplicate id = true
          ↔ 2 ≤ (writtenAnchors blocks).count id
            ∨ id ∈ derivedIds flag blocks ∧ id ∈ unseenAnchors blocks := by
  obtain ⟨hnodup, hnew⟩ : (derivedIds flag blocks).Nodup
      ∧ ∀ id ∈ derivedIds flag blocks, id ∉ explicitIds blocks :=
    Leveling.newIds_run _ blocks
  have hperm := declaredAnchors_buildOutline flag blocks
  refine ⟨hnodup, hnew, hperm, fun id => ?_⟩
  rw [isDuplicate_build, hperm.count_eq, List.count_append]
  by_cases hderived : id ∈ derivedIds flag blocks
  · -- derived once, so written once more is enough, and that is out of sight
    have hone := List.count_eq_one_of_mem hnodup hderived
    have hwritten : 1 ≤ (writtenAnchors blocks).count id
        ↔ id ∈ unseenAnchors blocks := by
      rw [List.one_le_count_iff]
      refine ⟨fun hmem => ?_, mem_writtenAnchors_of_unseen⟩
      exact (mem_writtenAnchors hmem).resolve_left (hnew id hderived)
    rw [hone, ← hwritten]
    simp only [hderived, true_and]
    omega
  · have hzero := List.count_eq_zero_of_not_mem hderived
    simp only [hzero, hderived, false_and, or_false, Nat.add_zero]

/-- A footnote with an anchor in its body, and a header whose text gives the
same id. -/
def boathouse : List Block :=
  [.footnoteDefinition .autonumber [.anchor "slip"], .header ⟨[.text "Slip"], none, 1⟩]

/-- The anchor is repeated although its id is written only once. -/
theorem isDuplicate_boathouse :
    (DocumentIndex.build (buildOutline false boathouse)).anchors.isDuplicate "slip"
        = true
      ∧ writtenAnchors boathouse = ["slip"]
      ∧ derivedIds false boathouse = ["slip"] := by
  decide

end Blocks

end Crosslink
