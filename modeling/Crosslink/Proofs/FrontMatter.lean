import Crosslink.Markdown.FrontMatter
import Crosslink.Proofs.Pieces

/-!
# Where front matter ends

A source with front matter is written from five parts: the opening fence with
its line end, complete lines that are no fences, the closing fence and the
body (`Fenced`). Each step of the splitting is characterized by an equation of
texts: the opening fence stands in front, and the first line that is a fence
is the closing one. What is complete about the lines before it comes from how
texts are cut into lines, since only the last line may lack its line feed.
-/

namespace Crosslink.Markdown

/-! ## The opening fence -/

def IsLineEnd (ending : List Char) : Prop :=
  ending = ['\n'] ∨ ending = ['\r', '\n']

theorem afterFence?_eq_some_iff {source rest : List Char} :
    afterFence? source = some rest
      ↔ ∃ ending, IsLineEnd ending ∧ source = frontMatterFence ++ ending ++ rest := by
  simp only [IsLineEnd, exists_eq_or_imp, exists_eq_left, List.append_assoc,
    @eq_comm _ source, ← List.isPrefixOf?_eq_some_iff_append_eq, List.cons_append,
    List.nil_append]
  unfold afterFence?
  generalize frontMatterFence.isPrefixOf? source = found
  split <;> simp_all

/-! ## The closing fence -/

/-- A fence, with white space after it. -/
def IsFence (line : List Char) : Prop := Text.trimEnd line = frontMatterFence

theorem splitAtFence_fence {line : List Char} (h : IsFence line)
    (lines : List (List Char)) : splitAtFence (line :: lines) = some ([], lines) :=
  if_pos h

theorem splitAtFence_line {line : List Char} (h : ¬ IsFence line)
    (lines : List (List Char)) :
    splitAtFence (line :: lines)
      = (splitAtFence lines).map fun (front, body) => (line :: front, body) :=
  if_neg h

theorem splitAtFence_eq_none_iff {lines : List (List Char)} :
    splitAtFence lines = none ↔ ∀ line ∈ lines, ¬ IsFence line := by
  induction lines with
  | nil => simp [splitAtFence]
  | cons line lines ih =>
      rw [List.forall_mem_cons]
      by_cases hline : IsFence line
      · simp [splitAtFence_fence hline, hline]
      · simp [splitAtFence_line hline, hline, ih]

/-- The closing fence is the first fence among the lines. -/
theorem splitAtFence_eq_some_iff {lines front body : List (List Char)} :
    splitAtFence lines = some (front, body)
      ↔ ∃ closing, lines = front ++ closing :: body ∧ IsFence closing
        ∧ ∀ line ∈ front, ¬ IsFence line := by
  induction lines generalizing front with
  | nil => simp [splitAtFence]
  | cons line lines ih =>
      by_cases hline : IsFence line
      · rw [splitAtFence_fence hline, Option.some.injEq, Prod.mk.injEq]
        constructor
        · rintro ⟨rfl, rfl⟩
          exact ⟨line, rfl, hline, List.forall_mem_nil _⟩
        · rintro ⟨closing, heq, -, hfront⟩
          cases front with
          | nil => simp_all
          | cons first front =>
              rw [List.cons_append, List.cons.injEq] at heq
              exact absurd (heq.1 ▸ hline) (hfront first List.mem_cons_self)
      · rw [splitAtFence_line hline, Option.map_eq_some_iff]
        constructor
        · rintro ⟨⟨before, after⟩, hsplit, heq⟩
          rw [Prod.mk.injEq] at heq
          obtain ⟨rfl, rfl⟩ := heq
          obtain ⟨closing, rfl, hclosing, hbefore⟩ := ih.mp hsplit
          exact ⟨closing, rfl, hclosing, List.forall_mem_cons.mpr ⟨hline, hbefore⟩⟩
        · rintro ⟨closing, heq, hclosing, hfront⟩
          cases front with
          | nil =>
              rw [List.nil_append, List.cons.injEq] at heq
              exact absurd (heq.1 ▸ hclosing) hline
          | cons first front =>
              rw [List.cons_append, List.cons.injEq] at heq
              obtain ⟨rfl, hlines⟩ := heq
              have hsplit := ih.mpr
                ⟨closing, hlines, hclosing, (List.forall_mem_cons.mp hfront).2⟩
              exact ⟨(front, body), hsplit, rfl⟩

/-! ## Sources with front matter -/

/-- What a source with front matter is written from. Only a closing fence at
the end of the source may lack its line feed. -/
structure Fenced where
  ending : List Char
  lines : List (List Char)
  closing : List Char
  body : List Char
  opens : IsLineEnd ending
  complete : ∀ line ∈ lines, Text.IsFullLine line
  inside : ∀ line ∈ lines, ¬ IsFence line
  closes : IsFence closing
  closed : Text.IsFullLine closing ∨ '\n' ∉ closing ∧ body = []

namespace Fenced

def front (parts : Fenced) : List Char := parts.lines.flatten

def source (parts : Fenced) : List Char :=
  frontMatterFence ++ parts.ending ++ (parts.front ++ parts.closing ++ parts.body)

theorem fullLines_source (parts : Fenced) :
    Text.fullLines (parts.front ++ parts.closing ++ parts.body)
      = parts.lines ++ parts.closing :: Text.fullLines parts.body := by
  rw [List.append_assoc, front, Text.fullLines_append parts.complete]
  rcases parts.closed with ⟨text, htext, hclosing⟩ | ⟨hclosing, hbody⟩
  · rw [hclosing, List.append_assoc, List.singleton_append, Text.fullLines_line htext]
  · have hne : parts.closing ≠ [] := by
      intro hnil
      have hcloses := parts.closes
      rw [hnil] at hcloses
      cases hcloses
    rw [hbody, List.append_nil, Text.fullLines_last hne hclosing]
    rfl

theorem splitFrontMatter_source (parts : Fenced) :
    splitFrontMatter parts.source = ⟨some parts.front, parts.body⟩ := by
  have hopen : afterFence? parts.source
      = some (parts.front ++ parts.closing ++ parts.body) :=
    afterFence?_eq_some_iff.mpr ⟨parts.ending, parts.opens, rfl⟩
  have hclose : splitAtFence (Text.fullLines (parts.front ++ parts.closing ++ parts.body))
      = some (parts.lines, Text.fullLines parts.body) :=
    splitAtFence_eq_some_iff.mpr
      ⟨parts.closing, parts.fullLines_source, parts.closes, parts.inside⟩
  rw [splitFrontMatter, hopen]
  simp only [hclose]
  rw [Text.flatten_fullLines, front]

/-- A fence among the lines after an opening fence makes front matter. -/
theorem of_split {ending rest : List Char} {front body : List (List Char)}
    (hopen : IsLineEnd ending) (h : splitAtFence (Text.fullLines rest) = some (front, body)) :
    ∃ parts : Fenced, parts.source = frontMatterFence ++ ending ++ rest
      ∧ parts.front = front.flatten ∧ parts.body = body.flatten := by
  obtain ⟨closing, hlines, hcloses, hinside⟩ := splitAtFence_eq_some_iff.mp h
  obtain ⟨hcomplete, hclosed⟩ := Text.fullLines_eq_append hlines
  have hrest : rest = front.flatten ++ closing ++ body.flatten := by
    rw [← Text.flatten_fullLines rest, hlines]
    simp
  have hlast : Text.IsFullLine closing ∨ '\n' ∉ closing ∧ body.flatten = [] := by
    rcases hclosed with hfull | ⟨hfeed, rfl⟩
    · exact .inl hfull
    · exact .inr ⟨hfeed, rfl⟩
  refine ⟨⟨ending, front, closing, body.flatten, hopen, hcomplete, hinside, hcloses,
    hlast⟩, ?_, rfl, rfl⟩
  rw [hrest]
  rfl

end Fenced

/-- Nothing is taken off without an opening fence, or without a fence among
the lines after it. -/
theorem splitFrontMatter_eq_none_iff {source : List Char} :
    splitFrontMatter source = ⟨none, source⟩
      ↔ ∀ ending rest, IsLineEnd ending → source = frontMatterFence ++ ending ++ rest →
        ∀ line ∈ Text.fullLines rest, ¬ IsFence line := by
  constructor
  · rintro h ending rest hending rfl
    rw [splitFrontMatter, afterFence?_eq_some_iff.mpr ⟨ending, hending, rfl⟩] at h
    cases hsplit : splitAtFence (Text.fullLines rest) with
    | none => exact splitAtFence_eq_none_iff.mp hsplit
    | some parts => simp [hsplit] at h
  · intro h
    rw [splitFrontMatter]
    cases hopen : afterFence? source with
    | none => rfl
    | some rest =>
        obtain ⟨ending, hending, hsource⟩ := afterFence?_eq_some_iff.mp hopen
        simp only [splitAtFence_eq_none_iff.mpr (h ending rest hending hsource)]

/-- What splitting finds is front matter, and what it leaves whole has none. -/
theorem splitFrontMatter_cases (source : List Char) :
    (∃ parts : Fenced, parts.source = source
        ∧ splitFrontMatter source = ⟨some parts.front, parts.body⟩)
      ∨ splitFrontMatter source = ⟨none, source⟩ := by
  cases hopen : afterFence? source with
  | none => exact .inr (by rw [splitFrontMatter, hopen])
  | some rest =>
      cases hsplit : splitAtFence (Text.fullLines rest) with
      | none => exact .inr (by simp only [splitFrontMatter, hopen, hsplit])
      | some pair =>
          obtain ⟨front, body⟩ := pair
          obtain ⟨ending, hending, hsource⟩ := afterFence?_eq_some_iff.mp hopen
          obtain ⟨parts, hparts, hfront, hbody⟩ := Fenced.of_split hending hsplit
          refine .inl ⟨parts, hparts.trans hsource.symm, ?_⟩
          simp only [splitFrontMatter, hopen, hsplit, hfront, hbody]

/-- Splitting takes the front matter off exactly the sources that are written
with it, at the place where it ends, and leaves every other source whole: one
that does not begin with a fence, or whose fence is not closed. -/
theorem splitFrontMatter_exact (source : List Char) :
    (∀ front body, splitFrontMatter source = ⟨some front, body⟩
        ↔ ∃ parts : Fenced, parts.source = source ∧ parts.front = front
          ∧ parts.body = body)
      ∧ ((∀ parts : Fenced, parts.source ≠ source) →
          splitFrontMatter source = ⟨none, source⟩)
      ∧ (splitFrontMatter source = ⟨none, source⟩
        ↔ ∀ ending rest, IsLineEnd ending →
          source = frontMatterFence ++ ending ++ rest →
            ∀ line ∈ Text.fullLines rest, ¬ IsFence line) := by
  refine ⟨fun front body => ⟨?_, ?_⟩, ?_, splitFrontMatter_eq_none_iff⟩
  · intro h
    rcases splitFrontMatter_cases source with ⟨parts, hsource, hparts⟩ | hnone
    · rw [h, SplitSource.mk.injEq, Option.some.injEq] at hparts
      exact ⟨parts, hsource, hparts.1.symm, hparts.2.symm⟩
    · rw [h] at hnone
      cases hnone
  · rintro ⟨parts, rfl, rfl, rfl⟩
    exact parts.splitFrontMatter_source
  · intro h
    rcases splitFrontMatter_cases source with ⟨parts, hsource, -⟩ | hnone
    · exact absurd hsource (h parts)
    · exact hnone

/-- The closing fence may end in blanks, the opening one may not. -/
example :
    splitFrontMatter "+++\r\nx = 1\n+++ \nTides\n+++\n".toList
        = ⟨some "x = 1\n".toList, "Tides\n+++\n".toList⟩
      ∧ splitFrontMatter "+++ \nx = 1\n+++\n".toList
        = ⟨none, "+++ \nx = 1\n+++\n".toList⟩ := by
  decide +kernel

end Crosslink.Markdown
