import Crosslink.Outline.Slug
import Crosslink.Proofs.Pieces
import Crosslink.Proofs.SmallLetters

/-!
# Slugs are words with hyphens

The slug of a text is made of the words of the lower-cased text, that is, its
maximal runs of letters and numbers, with one hyphen between each two of them
(`toList_slugify`). So cutting a slug at its hyphens gives its words back, none
of which is empty: no hyphen stands at an end or beside another one
(`Text.intercalate_separated`). The slug of a slug has the same words
(`slugWords_slugify`), as all letters of a slug are small.
-/

namespace Crosslink

/-! ## Runs -/

namespace Text

/-- The maximal runs of characters with the property `p`, in order. -/
def runs (p : Char → Bool) (cs : List Char) : List (List Char) :=
  (cs.splitOnP (!p ·)).filter (!·.isEmpty)

variable {p : Char → Bool}

/-- Runs are not empty and hold characters with the property only. -/
theorem of_mem_runs {cs run : List Char} (h : run ∈ runs p cs) :
    run ≠ [] ∧ ∀ c ∈ run, p c = true := by
  obtain ⟨hmem, hne⟩ := List.mem_filter.mp h
  refine ⟨by simpa using hne, fun c hc => ?_⟩
  simpa using (mem_of_mem_splitOnP hmem hc).1

/-- A gap ends the runs before it and belongs to none. -/
theorem runs_append_gap {gap : Char} (hgap : p gap = false) (front back : List Char) :
    runs p (front ++ gap :: back) = runs p front ++ runs p back := by
  rw [runs, List.splitOnP_append_cons front back (by simp [hgap]), List.filter_append]
  rfl

theorem runs_run {run : List Char} (hne : run ≠ []) (h : ∀ c ∈ run, p c = true) :
    runs p run = [run] := by
  rw [runs, List.splitOnP_eq_singleton fun c hc => by simp [h c hc]]
  simp [hne]

theorem runs_eq_nil_iff {cs : List Char} : runs p cs = [] ↔ ∀ c ∈ cs, p c = false := by
  induction cs with
  | nil => simp [runs]
  | cons c cs ih =>
      rw [List.forall_mem_cons, ← ih]
      cases hc : p c with
      | false => simp [show runs p (c :: cs) = runs p cs from runs_append_gap hc [] cs]
      | true =>
          obtain ⟨first, rest, hsplit⟩ :=
            List.exists_cons_of_ne_nil (List.splitOnP_ne_nil (!p ·) cs)
          simp [runs, List.splitOnP_cons_eq_if_modifyHead, hc, hsplit]

theorem any_eq_not_isEmpty_runs (cs : List Char) : cs.any p = !(runs p cs).isEmpty := by
  rw [← Bool.not_inj_iff, Bool.not_not, Bool.eq_iff_iff, List.isEmpty_iff, runs_eq_nil_iff]
  simp

/-- Runs joined by a gap are the runs of the text. -/
theorem runs_intercalate {gap : Char} (hgap : p gap = false) {pieces : List (List Char)}
    (h : ∀ piece ∈ pieces, piece ≠ [] ∧ ∀ c ∈ piece, p c = true) :
    runs p ([gap].intercalate pieces) = pieces := by
  induction pieces with
  | nil => rfl
  | cons piece pieces ih =>
      obtain ⟨⟨hne, hpiece⟩, hpieces⟩ := List.forall_mem_cons.mp h
      cases pieces with
      | nil => rw [List.intercalate_singleton, runs_run hne hpiece]
      | cons next pieces =>
          rw [List.intercalate_cons_cons, List.append_assoc, List.singleton_append,
            runs_append_gap hgap, runs_run hne hpiece, ih hpieces]
          rfl

/-- Between pieces that are not empty, separators stand apart. -/
theorem intercalate_separated {separator : Char} {pieces : List (List Char)}
    (h : ∀ piece ∈ pieces, piece ≠ [] ∧ separator ∉ piece) :
    ([separator].intercalate pieces).head? ≠ some separator
      ∧ ([separator].intercalate pieces).getLast? ≠ some separator
      ∧ ¬ [separator, separator] <:+: [separator].intercalate pieces := by
  -- no piece on either side of a separator is empty
  have hsides : ∀ front back, [separator].intercalate pieces = front ++ separator :: back →
      [] ∉ front.splitOn separator ∧ [] ∉ back.splitOn separator := by
    intro front back heq
    have hne : pieces ≠ [] := by
      rintro rfl
      cases front <;> cases heq
    have hpieces : front.splitOn separator ++ back.splitOn separator = pieces := by
      rw [← List.splitOn_append_cons_self, ← heq,
        List.splitOn_intercalate separator (fun piece hpiece => (h piece hpiece).2) hne]
    constructor <;> intro hempty
    · exact (h [] (hpieces ▸ List.mem_append_left _ hempty)).1 rfl
    · exact (h [] (hpieces ▸ List.mem_append_right _ hempty)).1 rfl
  refine ⟨fun hhead => ?_, fun hlast => ?_, fun hdouble => ?_⟩
  · obtain ⟨back, hback⟩ := List.head?_eq_some_iff.mp hhead
    exact (hsides [] back hback).1 List.mem_cons_self
  · obtain ⟨front, hfront⟩ := List.getLast?_eq_some_iff.mp hlast
    exact (hsides front [] hfront).2 List.mem_cons_self
  · obtain ⟨front, back, heq⟩ := hdouble
    have hback : (separator :: back).splitOn separator = [] :: back.splitOn separator :=
      List.splitOn_append_cons_self [] back
    have hempty := (hsides front (separator :: back) (by simp [← heq])).2
    rw [hback] at hempty
    exact hempty List.mem_cons_self

end Text

/-! ## The words of a slug -/

open Unicode (isAlphanumeric lowercase)

/-- The words of a text, which its slug is made of. -/
def slugWords (text : String) : List (List Char) :=
  Text.runs isAlphanumeric (lowercase text.toList)

/-- At the start of a text and after a gap, the runs follow with hyphens
between them; after a part of a run, the rest of this one comes first. -/
theorem hyphenate_eq (cs : List Char) :
    hyphenate false cs = ['-'].intercalate (Text.runs isAlphanumeric cs)
      ∧ ∀ run : List Char, run ≠ [] → (∀ c ∈ run, isAlphanumeric c = true) →
        run ++ hyphenate true cs
          = ['-'].intercalate (Text.runs isAlphanumeric (run ++ cs)) := by
  induction cs with
  | nil =>
      refine ⟨rfl, fun run hne hrun => ?_⟩
      rw [hyphenate, List.append_nil, Text.runs_run hne hrun, List.intercalate_singleton]
  | cons c cs ih =>
      obtain ⟨hgap, hword⟩ := ih
      by_cases hc : isAlphanumeric c = true
      · constructor
        · rw [hyphenate, if_pos hc]
          exact hword [c] (List.cons_ne_nil c []) (List.forall_mem_singleton.mpr hc)
        · intro run hne hrun
          have hlonger : ∀ d ∈ run ++ [c], isAlphanumeric d = true :=
            List.forall_mem_append.mpr ⟨hrun, List.forall_mem_singleton.mpr hc⟩
          have hnext := hword (run ++ [c]) (by simp) hlonger
          rw [hyphenate, if_pos hc]
          simpa using hnext
      · have hnone : isAlphanumeric c = false := Bool.not_eq_true _ ▸ hc
        constructor
        · rw [hyphenate, if_neg hc, Bool.false_and, if_neg Bool.false_ne_true, hgap]
          exact congrArg _ (Text.runs_append_gap hnone [] cs).symm
        · intro run hne hrun
          -- a gap after a word is marked just if another word follows
          rw [Text.runs_append_gap hnone, Text.runs_run hne hrun, hyphenate, if_neg hc,
            Bool.true_and, hgap, Text.any_eq_not_isEmpty_runs]
          cases Text.runs isAlphanumeric cs with
          | nil => simp
          | cons next runs => simp

theorem toList_slugify (text : String) :
    (slugify text).toList = ['-'].intercalate (slugWords text) := by
  rw [slugify, String.toList_ofList, (hyphenate_eq _).1, slugWords]

theorem of_mem_slugWords {text : String} {word : List Char} (h : word ∈ slugWords text) :
    word ≠ [] ∧ '-' ∉ word := by
  obtain ⟨hne, hword⟩ := Text.of_mem_runs h
  refine ⟨hne, fun hhyphen => ?_⟩
  have hgap : isAlphanumeric '-' = false := by decide
  exact Bool.noConfusion (hgap.symm.trans (hword '-' hhyphen))

theorem slugify_eq_empty_iff {text : String} : slugify text = "" ↔ slugWords text = [] := by
  rw [← String.toList_eq_nil_iff, toList_slugify]
  cases hwords : slugWords text with
  | nil => simp
  | cons word words =>
      have hne := (of_mem_slugWords (hwords ▸ List.mem_cons_self)).1
      cases words <;> simp [hne]

theorem mem_hyphenate {c : Char} {inWord : Bool} {cs : List Char}
    (h : c ∈ hyphenate inWord cs) : c = '-' ∨ c ∈ cs := by
  induction cs generalizing inWord with
  | nil => cases h
  | cons first cs ih =>
      rw [hyphenate] at h
      rw [List.mem_cons, or_left_comm]
      split at h
      · exact (List.mem_cons.mp h).imp_right ih
      · refine .inr ?_
        split at h
        · exact (List.mem_cons.mp h).elim .inl ih
        · exact ih h

/-- All letters of a slug are small. -/
theorem lowercase_slugify (text : String) :
    lowercase (slugify text).toList = (slugify text).toList := by
  refine Unicode.lowercase_eq_self fun c hc => ?_
  rw [slugify, String.toList_ofList] at hc
  rcases mem_hyphenate hc with rfl | hmem
  · decide +kernel
  · exact Unicode.isSmall_of_mem_lowercase hmem

theorem slugWords_slugify (text : String) : slugWords (slugify text) = slugWords text := by
  rw [slugWords, lowercase_slugify, toList_slugify]
  exact Text.runs_intercalate (by decide) fun word hword => Text.of_mem_runs hword

/-- The slug of a text is the words of the lower-cased text with a hyphen
between each two of them. No hyphen stands at its ends or beside another one,
it is empty just if the lower-cased text has no letters and numbers, and it is
its own slug. -/
theorem slugify_words (text : String) :
    slugify text
        = String.ofList
            (['-'].intercalate (Text.runs isAlphanumeric (lowercase text.toList)))
      ∧ (slugify text).toList.head? ≠ some '-'
      ∧ (slugify text).toList.getLast? ≠ some '-'
      ∧ ¬ ['-', '-'] <:+: (slugify text).toList
      ∧ (slugify text = "" ↔ ∀ c ∈ lowercase text.toList, isAlphanumeric c = false)
      ∧ slugify (slugify text) = slugify text := by
  have hwords : ∀ word ∈ slugWords text, word ≠ [] ∧ '-' ∉ word :=
    fun word hword => of_mem_slugWords hword
  have hseparated := Text.intercalate_separated hwords
  rw [← toList_slugify] at hseparated
  obtain ⟨hfirst, hlast, hdouble⟩ := hseparated
  refine ⟨?_, hfirst, hlast, hdouble, ?_, ?_⟩
  · exact String.toList_inj.mp (by rw [toList_slugify, String.toList_ofList, slugWords])
  · rw [slugify_eq_empty_iff, slugWords, Text.runs_eq_nil_iff]
  · exact String.toList_inj.mp (by rw [toList_slugify, toList_slugify, slugWords_slugify])

/-- The dotted capital becomes two characters, the second of which is no letter. -/
example : slugify "İnlet & Tides!" = "i-nlet-tides" := by
  decide +kernel

end Crosslink
