import Mathlib.Data.List.DropRight
import Crosslink.Text.Basic

/-!
# Texts cut and put together again

Cutting a text at a character leaves pieces without that character, which
hold nothing that the text does not hold (`mem_of_mem_splitOn`). Pieces without it
are told from the text in which they are written with the character in between
(`intercalate_injective`). The lines of a text, each with its line feed, are the text
(`flatten_fullLines`), and only the last one may lack the line feed
(`fullLines_eq_append`). A text between visible characters is what trimming leaves of
its line (`trim_line`).
-/

namespace Crosslink

namespace Text

variable {separator : Char}

/-! ## Cutting once -/

theorem not_mem_of_cutAt {cs front back : List Char}
    (h : cutAt separator cs = some (front, back)) : separator ∉ front := by
  induction cs generalizing front with
  | nil => simp [cutAt] at h
  | cons c cs ih =>
      rw [cutAt] at h
      split at h
      case isTrue => simp_all
      case isFalse hc =>
        obtain ⟨⟨a, b⟩, hab, heq⟩ := Option.map_eq_some_iff.1 h
        simp only [Prod.mk.injEq] at heq
        obtain ⟨rfl, rfl⟩ := heq
        simp [ih hab, Ne.symm hc]

theorem cutAt_append_of_not_mem {front : List Char} (h : separator ∉ front)
    (back : List Char) :
    cutAt separator (front ++ back)
      = (cutAt separator back).map fun (before, after) => (front ++ before, after) := by
  induction front with
  | nil => simp
  | cons c front ih =>
      obtain ⟨hc, hfront⟩ := List.ne_and_not_mem_of_not_mem_cons h
      rw [List.cons_append, cutAt, if_neg (Ne.symm hc), ih hfront, Option.map_map]
      rfl

theorem cutAt_append {front : List Char} (h : separator ∉ front)
    (back : List Char) :
    cutAt separator (front ++ separator :: back) = some (front, back) := by
  simp [cutAt_append_of_not_mem h, cutAt]

theorem cutAt_eq_none_iff {cs : List Char} :
    cutAt separator cs = none ↔ separator ∉ cs := by
  induction cs with
  | nil => simp [cutAt]
  | cons c cs ih =>
      rw [cutAt, List.mem_cons, not_or, ← ih, eq_comm (a := separator)]
      split
      case isTrue hc => simp [hc]
      case isFalse hc => simp [hc]

/-! ## Cutting everywhere -/

/-- Pieces are made of characters of the text at which it is not cut. -/
theorem mem_of_mem_splitOnP {p : Char → Bool} {c : Char} {cs piece : List Char}
    (hpiece : piece ∈ cs.splitOnP p) (hc : c ∈ piece) : p c = false ∧ c ∈ cs := by
  induction cs generalizing piece with
  | nil =>
      obtain rfl : piece = [] := by simpa using hpiece
      cases hc
  | cons d cs ih =>
      rw [List.splitOnP_cons_eq_if_modifyHead] at hpiece
      split at hpiece
      · rcases List.mem_cons.mp hpiece with rfl | hpiece
        · cases hc
        · exact (ih hpiece hc).imp_right (List.mem_cons_of_mem d)
      case isFalse hd =>
        obtain ⟨first, pieces, hsplit⟩ :=
          List.exists_cons_of_ne_nil (List.splitOnP_ne_nil p cs)
        rw [hsplit] at ih
        rw [hsplit, List.modifyHead_cons] at hpiece
        rcases List.mem_cons.mp hpiece with rfl | hpiece
        · rcases List.mem_cons.mp hc with rfl | hc
          · exact ⟨Bool.not_eq_true _ ▸ hd, List.mem_cons_self⟩
          · exact (ih List.mem_cons_self hc).imp_right (List.mem_cons_of_mem d)
        · exact (ih (List.mem_cons_of_mem first hpiece) hc).imp_right
            (List.mem_cons_of_mem d)

theorem mem_of_mem_splitOn {c : Char} {cs piece : List Char}
    (hpiece : piece ∈ cs.splitOn separator) (hc : c ∈ piece) :
    c ≠ separator ∧ c ∈ cs :=
  (mem_of_mem_splitOnP hpiece hc).imp_left ne_of_beq_false

/-- Texts without the separator are told from what they are joined to. -/
theorem intercalate_injective {left right : List (List Char)}
    (hleft : ∀ piece ∈ left, separator ∉ piece)
    (hright : ∀ piece ∈ right, separator ∉ piece) (hlength : left.length = right.length)
    (h : [separator].intercalate left = [separator].intercalate right) : left = right := by
  cases left with
  | nil => exact (List.length_eq_zero_iff.mp hlength.symm).symm
  | cons piece left =>
      have hne : right ≠ [] := by
        rintro rfl
        cases hlength
      rw [← List.splitOn_intercalate separator hleft (List.cons_ne_nil piece left), h,
        List.splitOn_intercalate separator hright hne]

theorem mem_of_mem_intercalate {c : Char} {pieces : List (List Char)}
    (h : c ∈ [separator].intercalate pieces) :
    c = separator ∨ ∃ piece ∈ pieces, c ∈ piece := by
  induction pieces with
  | nil => cases h
  | cons piece pieces ih =>
      cases pieces with
      | nil => exact .inr ⟨piece, List.mem_cons_self, by simpa using h⟩
      | cons next pieces =>
          rw [List.intercalate_cons_cons, List.mem_append, List.mem_append,
            List.mem_singleton] at h
          rcases h with (h | h) | h
          · exact .inr ⟨piece, List.mem_cons_self, h⟩
          · exact .inl h
          · rcases ih h with h | ⟨inside, hinside, h⟩
            · exact .inl h
            · exact .inr ⟨inside, List.mem_cons_of_mem _ hinside, h⟩

theorem not_mem_intercalate {c : Char} {pieces : List (List Char)} (hc : c ≠ separator)
    (h : ∀ piece ∈ pieces, c ∉ piece) : c ∉ [separator].intercalate pieces := by
  intro hmem
  rcases mem_of_mem_intercalate hmem with hsame | ⟨piece, hpiece, hinside⟩
  · exact hc hsame
  · exact h piece hpiece hinside

/-! ## Lines -/

/-- A line with its line feed. -/
def IsFullLine (line : List Char) : Prop :=
  ∃ text, '\n' ∉ text ∧ line = text ++ ['\n']

theorem flatten_fullLines (cs : List Char) : (fullLines cs).flatten = cs := by
  induction cs with
  | nil => rfl
  | cons c cs ih =>
      rw [fullLines]
      split
      · simp [ih]
      · split
        · rename_i hnone
          rw [hnone] at ih
          simp [← ih]
        · rename_i line lines hsome
          rw [hsome, List.flatten_cons] at ih
          simp [ih]

theorem fullLines_line {text : List Char} (h : '\n' ∉ text) (rest : List Char) :
    fullLines (text ++ '\n' :: rest) = (text ++ ['\n']) :: fullLines rest := by
  induction text with
  | nil => simp [fullLines]
  | cons c text ih =>
      obtain ⟨hc, htext⟩ := List.ne_and_not_mem_of_not_mem_cons h
      rw [List.cons_append, fullLines, if_neg (Ne.symm hc), ih htext]
      rfl

/-- A text that is left without a line feed is a line. -/
theorem fullLines_last {text : List Char} (hne : text ≠ []) (h : '\n' ∉ text) :
    fullLines text = [text] := by
  induction text with
  | nil => exact absurd rfl hne
  | cons c text ih =>
      obtain ⟨hc, htext⟩ := List.ne_and_not_mem_of_not_mem_cons h
      rw [fullLines, if_neg (Ne.symm hc)]
      cases text with
      | nil => rfl
      | cons d text => rw [ih (List.cons_ne_nil d text) htext]

theorem fullLines_append {lines : List (List Char)}
    (h : ∀ line ∈ lines, IsFullLine line) (rest : List Char) :
    fullLines (lines.flatten ++ rest) = lines ++ fullLines rest := by
  induction lines with
  | nil => rfl
  | cons line lines ih =>
      obtain ⟨⟨text, htext, rfl⟩, hlines⟩ := List.forall_mem_cons.mp h
      have hfirst := fullLines_line htext (lines.flatten ++ rest)
      simpa [ih hlines] using hfirst

/-- The first line of a text is full, unless it is the whole text. -/
theorem fullLines_eq_cons {cs line : List Char} {lines : List (List Char)}
    (h : fullLines cs = line :: lines) :
    IsFullLine line ∧ fullLines lines.flatten = lines ∨ '\n' ∉ line ∧ lines = [] := by
  cases hcut : cutAt '\n' cs with
  | some parts =>
      obtain ⟨text, rest⟩ := parts
      have htext := not_mem_of_cutAt hcut
      rw [eq_of_cutAt hcut, fullLines_line htext, List.cons.injEq] at h
      obtain ⟨rfl, rfl⟩ := h
      exact .inl ⟨⟨text, htext, rfl⟩, by rw [flatten_fullLines]⟩
  | none =>
      have hfeed := cutAt_eq_none_iff.mp hcut
      have hne : cs ≠ [] := by
        rintro rfl
        cases h
      rw [fullLines_last hne hfeed, List.cons.injEq] at h
      obtain ⟨rfl, rfl⟩ := h
      exact .inr ⟨hfeed, rfl⟩

/-- Every line but the last one is full. -/
theorem fullLines_eq_append {cs line : List Char} {front back : List (List Char)}
    (h : fullLines cs = front ++ line :: back) :
    (∀ line ∈ front, IsFullLine line) ∧ (IsFullLine line ∨ '\n' ∉ line ∧ back = []) := by
  induction front generalizing cs with
  | nil => exact ⟨List.forall_mem_nil _, (fullLines_eq_cons h).imp_left And.left⟩
  | cons first front ih =>
      rcases fullLines_eq_cons h with ⟨hfirst, hrest⟩ | ⟨-, hnone⟩
      · obtain ⟨hfront, hline⟩ := ih hrest
        exact ⟨List.forall_mem_cons.mpr ⟨hfirst, hfront⟩, hline⟩
      · simp at hnone

/-! ## Trimming -/

variable {p : Char → Bool}

theorem dropEndWhile_eq_rdropWhile (cs : List Char) :
    dropEndWhile p cs = cs.rdropWhile p := rfl

theorem dropEndWhile_append {back : List Char} (front : List Char)
    (h : ∀ c ∈ back, p c = true) :
    dropEndWhile p (front ++ back) = dropEndWhile p front := by
  have hback : ∀ c ∈ back.reverse, p c = true := fun c hc => h c (List.mem_reverse.mp hc)
  rw [dropEndWhile, List.reverse_append, List.dropWhile_append_of_pos hback]
  rfl

theorem dropEndWhile_eq_self {cs : List Char} (h : ∀ c ∈ cs, p c = false) :
    dropEndWhile p cs = cs := by
  rw [dropEndWhile_eq_rdropWhile, List.rdropWhile_eq_self_iff]
  intro hne
  simp [h _ (List.getLast_mem hne)]

/-- What stands in a line between two visible characters. -/
theorem trim_line {first last : Char} (middle : List Char)
    (hfirst : Unicode.isWhite first = false) (hlast : Unicode.isWhite last = false) :
    trim (first :: (middle ++ [last, '\n'])) = first :: (middle ++ [last]) := by
  have hend : dropEndWhile Unicode.isWhite (first :: (middle ++ [last, '\n']))
      = first :: (middle ++ [last]) := by
    have hline : first :: (middle ++ [last, '\n'])
        = (first :: middle ++ [last]) ++ ['\n'] := by simp
    have hblank : ∀ c ∈ ['\n'], Unicode.isWhite c = true :=
      List.forall_mem_singleton.mpr rfl
    rw [hline, dropEndWhile_append _ hblank, dropEndWhile_eq_rdropWhile,
      List.rdropWhile_concat_neg _ _ _ (by simp [hlast]), List.cons_append]
  rw [trim, trimStart, List.dropWhile_cons_of_neg (by simp [hfirst]), trimEnd, hend]

end Text

end Crosslink
