import Crosslink.Proofs.Sources

/-!
# Quote marks taken off

In front of a line inside quotes stands a mark for each quote, save for the
first line of a paragraph, whose marks are no part of its text, and for lines
that go on without all of them. A mark is a greater-than sign with up to three
spaces before it and perhaps one after it. Taking the marks off skips the white
space in front of a line, but between two marks no more than one space. So a
text comes out as it stood before quoting exactly if in none of its lines two
marks are further apart; otherwise the marks behind the first wide gap of a
line stay in the text (`stripQuoteMarkers_quoted`), as they do in
`bollardNote`.
-/

namespace Crosslink.Markdown

/-! ## Lines joined and cut -/

theorem IsLine.feed {line : List Char} (h : IsLine line) : '\n' ∉ line :=
  fun hmem => (h _ hmem).1 rfl

/-- Whatever ends a line, only its end is taken off. -/
theorem chomp_append {line : List Char} (h : IsLine line) (ending : List Char) :
    Text.chomp (line ++ ending) = line ++ Text.chomp ending := by
  induction line with
  | nil => rfl
  | cons c line ih =>
      obtain ⟨hc, hline⟩ := isLine_cons.mp h
      rw [List.cons_append, Text.chomp, ih hline]
      · rfl
      · exact fun hfeed _ => hc.1 hfeed
      · exact fun hreturn _ => hc.2 hreturn

/-- Joined lines are cut where they were joined. -/
theorem lines_intercalate {lines : List (List Char)} (h : ∀ line ∈ lines, line ≠ [] ∧ IsLine line) :
    Text.lines (['\n'].intercalate lines) = lines := by
  induction lines with
  | nil => rfl
  | cons line lines ih =>
      obtain ⟨⟨hne, hline⟩, hlines⟩ := List.forall_mem_cons.mp h
      cases lines with
      | nil =>
          have hlast : Text.chomp line = line := by simpa [Text.chomp] using chomp_append hline []
          rw [List.intercalate_singleton, Text.lines, Text.fullLines_last hne hline.feed,
            List.map_singleton, hlast]
      | cons next lines =>
          have hrest := ih hlines
          rw [Text.lines] at hrest
          have hfull : Text.chomp (line ++ ['\n']) = line := by
            rw [chomp_append hline, Text.chomp, List.append_nil]
          rw [List.intercalate_cons_cons, List.append_assoc, List.singleton_append, Text.lines,
            Text.fullLines_line hline.feed, List.map_cons, hfull, hrest]

/-! ## Marks -/

/-- The mark of one quote in front of a line. -/
structure QuoteMark where
  /-- Spaces before the sign. -/
  indent : Fin 4
  /-- A space stands after the sign. -/
  spaced : Bool

namespace QuoteMark

/-- The mark without its indentation. -/
def sign (mark : QuoteMark) : List Char :=
  '>' :: List.replicate mark.spaced.toNat ' '

def text (mark : QuoteMark) : List Char :=
  List.replicate mark.indent ' ' ++ mark.sign

/-- Spaces between the signs of a mark and the next one. -/
def gap (mark next : QuoteMark) : Nat := mark.spaced.toNat + next.indent

end QuoteMark

/-- What is left of the marks of a line: those behind the first gap of more
than one space, and what is left of this gap. -/
def leftMarks : List QuoteMark → List Char
  | mark :: next :: marks =>
    if mark.gap next ≤ 1 then leftMarks (next :: marks)
    else
      List.replicate (mark.gap next - 1) ' ' ++ next.sign
        ++ marks.flatMap QuoteMark.text
  | _ => []

theorem leftMarks_eq_nil_iff (marks : List QuoteMark) :
    leftMarks marks = [] ↔ marks.IsChain fun mark next => mark.gap next ≤ 1 := by
  fun_induction leftMarks marks with
  | case1 mark next marks hgap ih => simp [hgap, ih]
  | case2 mark next marks hgap => simp [hgap, QuoteMark.sign]
  | case3 marks h =>
      rcases marks with _ | ⟨mark, _ | ⟨next, marks⟩⟩
      · simp
      · simp
      · exact absurd rfl (h mark next marks)

theorem isLine_sign (mark : QuoteMark) : IsLine mark.sign := by
  cases hspaced : mark.spaced <;> simp [QuoteMark.sign, hspaced]

theorem isLine_spaces (count : Nat) : IsLine (List.replicate count ' ') := by
  intro c hc
  rw [List.eq_of_mem_replicate hc]
  decide

theorem isLine_flatMap_text (marks : List QuoteMark) :
    IsLine (marks.flatMap QuoteMark.text) := by
  induction marks with
  | nil => exact isLine_nil
  | cons mark marks ih =>
      simp [List.flatMap_cons, QuoteMark.text, isLine_sign, isLine_spaces, ih]

theorem isLine_leftMarks (marks : List QuoteMark) : IsLine (leftMarks marks) := by
  fun_induction leftMarks marks with
  | case1 mark next marks hgap ih => exact ih
  | case2 mark next marks hgap => simp [isLine_sign, isLine_spaces, isLine_flatMap_text]
  | case3 marks h => exact isLine_nil

/-! ## Taking marks off -/

theorem dropQuoteMarkers_eq_self {cs : List Char} (h : cs.head? ≠ some '>') (depth : Nat) :
    dropQuoteMarkers depth cs = cs := by
  unfold dropQuoteMarkers
  split <;> simp_all

/-- A sign takes one space after it away. -/
theorem dropQuoteMarkers_sign {rest : List Char} (h : rest.head? ≠ some ' ')
    (depth spaces : Nat) :
    dropQuoteMarkers (depth + 1) ('>' :: (List.replicate spaces ' ' ++ rest))
      = dropQuoteMarkers depth (List.replicate (spaces - 1) ' ' ++ rest) := by
  cases spaces with
  | zero =>
      rw [List.replicate_zero, List.nil_append, dropQuoteMarkers]
      rintro cs rfl
      exact h rfl
  | succ spaces => rfl

/-- A line inside quotes: a text that begins with a visible character other
than the sign of a mark, behind its marks. -/
structure QuotedLine where
  marks : List QuoteMark
  text : List Char
  starts : ∃ c, text.head? = some c ∧ Unicode.isWhite c = false ∧ c ≠ '>'
  isLine : IsLine text

namespace QuotedLine

variable (line : QuotedLine)

def written : List Char := line.marks.flatMap QuoteMark.text ++ line.text

/-- The line with what is left of its marks. -/
def stripped : List Char := leftMarks line.marks ++ line.text

/-- No two marks are more than one space apart. -/
def IsNarrow : Prop := line.marks.IsChain fun mark next => mark.gap next ≤ 1

theorem head?_text_ne {c : Char} (hc : Unicode.isWhite c = true ∨ c = '>') :
    line.text.head? ≠ some c := by
  obtain ⟨first, hfirst, hwhite, hsign⟩ := line.starts
  rw [hfirst]
  rintro ⟨⟩
  simp_all

theorem text_ne_nil : line.text ≠ [] := by
  obtain ⟨c, hc, -⟩ := line.starts
  rintro hnil
  rw [hnil] at hc
  cases hc

theorem written_isLine : line.written ≠ [] ∧ IsLine line.written :=
  ⟨by simp [written, line.text_ne_nil],
    isLine_append.mpr ⟨isLine_flatMap_text line.marks, line.isLine⟩⟩

theorem isLine_stripped : IsLine line.stripped :=
  isLine_append.mpr ⟨isLine_leftMarks line.marks, line.isLine⟩

theorem stripped_eq_text_iff : line.stripped = line.text ↔ line.IsNarrow := by
  rw [stripped, List.append_left_eq_self, leftMarks_eq_nil_iff, IsNarrow]

/-- From the first sign on, the marks are taken off up to the first wide gap. -/
theorem dropQuoteMarkers_marks (mark : QuoteMark) (marks : List QuoteMark) {depth : Nat}
    (hdepth : marks.length < depth) :
    dropQuoteMarkers depth (mark.sign ++ (marks.flatMap QuoteMark.text ++ line.text))
      = leftMarks (mark :: marks) ++ line.text := by
  induction marks generalizing mark depth with
  | nil =>
      obtain ⟨depth, rfl⟩ := Nat.exists_eq_add_one_of_ne_zero (Nat.ne_zero_of_lt hdepth)
      have hspace : mark.spaced.toNat - 1 = 0 := Nat.sub_eq_zero_of_le (Bool.toNat_le _)
      rw [List.flatMap_nil, List.nil_append, QuoteMark.sign, List.cons_append,
        dropQuoteMarkers_sign (line.head?_text_ne (.inl rfl)), hspace]
      exact dropQuoteMarkers_eq_self (line.head?_text_ne (.inr rfl)) depth
  | cons next marks ih =>
      obtain ⟨depth, rfl⟩ := Nat.exists_eq_add_one_of_ne_zero (Nat.ne_zero_of_lt hdepth)
      have hspaces : mark.sign ++ ((next :: marks).flatMap QuoteMark.text ++ line.text)
          = '>' :: (List.replicate (mark.gap next) ' '
            ++ (next.sign ++ (marks.flatMap QuoteMark.text ++ line.text))) := by
        simp [QuoteMark.sign, QuoteMark.text, QuoteMark.gap,
          ← List.replicate_append_replicate]
      have hsign : (next.sign ++ (marks.flatMap QuoteMark.text ++ line.text)).head?
          ≠ some ' ' := by
        simp [QuoteMark.sign]
      rw [hspaces, dropQuoteMarkers_sign hsign, leftMarks]
      split
      case isTrue hgap =>
        rw [Nat.sub_eq_zero_of_le hgap]
        exact ih next (Nat.lt_of_succ_lt_succ hdepth)
      case isFalse hgap =>
        -- the space that is left hides the next sign
        obtain ⟨wide, hwide⟩ : ∃ wide, mark.gap next - 1 = wide + 1 :=
          ⟨mark.gap next - 2, by omega⟩
        rw [hwide, dropQuoteMarkers_eq_self (by simp [List.replicate_succ])]
        simp

theorem dropQuoteMarkers_written {depth : Nat} (hdepth : line.marks.length ≤ depth) :
    dropQuoteMarkers depth (Text.trimStart line.written) = line.stripped := by
  rw [written, stripped]
  cases hmarks : line.marks with
  | nil =>
      obtain ⟨c, hc, hwhite, -⟩ := line.starts
      obtain ⟨rest, htext⟩ := List.head?_eq_some_iff.mp hc
      rw [List.flatMap_nil, List.nil_append, Text.trimStart, htext,
        List.dropWhile_cons_of_neg (by simp [hwhite]), ← htext]
      exact dropQuoteMarkers_eq_self (line.head?_text_ne (.inr rfl)) depth
  | cons mark marks =>
      have hblank : Unicode.isWhite ' ' = true := rfl
      rw [hmarks, List.length_cons, Nat.add_one_le_iff] at hdepth
      have htrim : Text.trimStart ((mark :: marks).flatMap QuoteMark.text ++ line.text)
          = mark.sign ++ (marks.flatMap QuoteMark.text ++ line.text) := by
        rw [Text.trimStart, List.flatMap_cons, QuoteMark.text, List.append_assoc,
          List.append_assoc, List.dropWhile_append_of_pos]
        · exact List.dropWhile_cons_of_neg (by decide)
        · simp [hblank]
      rw [htrim, line.dropQuoteMarkers_marks mark marks hdepth]

end QuotedLine

theorem stripQuoteMarkers_written {depth : Nat} {lines : List QuotedLine}
    (hdepth : ∀ line ∈ lines, line.marks.length ≤ depth) :
    stripQuoteMarkers depth (['\n'].intercalate (lines.map QuotedLine.written))
      = ['\n'].intercalate (lines.map QuotedLine.stripped) := by
  rw [stripQuoteMarkers]
  split
  case isTrue hzero =>
    -- outside of quotes no line has a mark
    refine congrArg _ (List.map_congr_left fun line hline => ?_)
    have hnone : line.marks = [] := by simpa [hzero] using hdepth line hline
    rw [QuotedLine.written, QuotedLine.stripped, hnone]
    rfl
  case isFalse =>
    have hlines : ∀ line ∈ lines.map QuotedLine.written, line ≠ [] ∧ IsLine line :=
      List.forall_mem_map.mpr fun line _ => line.written_isLine
    rw [lines_intercalate hlines, List.map_map]
    exact congrArg _ (List.map_congr_left fun line hline =>
      line.dropQuoteMarkers_written (hdepth line hline))

/-- Each line of a quoted text comes out with what is left of its marks, and
the text is the one before quoting exactly if no two marks of a line are more
than one space apart. -/
theorem stripQuoteMarkers_quoted {depth : Nat} {lines : List QuotedLine}
    (hdepth : ∀ line ∈ lines, line.marks.length ≤ depth) :
    stripQuoteMarkers depth (['\n'].intercalate (lines.map QuotedLine.written))
        = ['\n'].intercalate (lines.map QuotedLine.stripped)
      ∧ (stripQuoteMarkers depth (['\n'].intercalate (lines.map QuotedLine.written))
          = ['\n'].intercalate (lines.map QuotedLine.text)
        ↔ ∀ line ∈ lines, line.IsNarrow) := by
  have hstripped : ∀ piece ∈ lines.map QuotedLine.stripped, '\n' ∉ piece :=
    List.forall_mem_map.mpr fun line _ => line.isLine_stripped.feed
  have htext : ∀ piece ∈ lines.map QuotedLine.text, '\n' ∉ piece :=
    List.forall_mem_map.mpr fun line _ => line.isLine.feed
  have heq := stripQuoteMarkers_written hdepth
  refine ⟨heq, ?_⟩
  rw [heq]
  constructor
  · intro hjoin line hline
    have hsame := Text.intercalate_injective hstripped htext (by simp) hjoin
    exact line.stripped_eq_text_iff.mp (List.map_inj_left.mp hsame line hline)
  · intro hnarrow
    exact congrArg _ (List.map_congr_left fun line hline =>
      line.stripped_eq_text_iff.mpr (hnarrow line hline))

/-- Three lines of a text inside three quotes, the last of which goes on
without marks. -/
def capstanNote : List QuotedLine :=
  [⟨[], "heave".toList, ⟨'h', rfl, rfl, by decide⟩, by simp⟩,
    ⟨[⟨3, true⟩, ⟨0, false⟩, ⟨1, true⟩], "and".toList, ⟨'a', rfl, rfl, by decide⟩, by simp⟩,
    ⟨[], "hold".toList, ⟨'h', rfl, rfl, by decide⟩, by simp⟩]

theorem stripQuoteMarkers_quoted_capstanNote :
    (∀ line ∈ capstanNote, line.marks.length ≤ 3)
      ∧ (∀ line ∈ capstanNote, line.IsNarrow)
      ∧ stripQuoteMarkers 3 "heave\n   > > > and\nhold".toList
        = "heave\nand\nhold".toList := by
  have hdepth : ∀ line ∈ capstanNote, line.marks.length ≤ 3 := by decide
  have hnarrow : ∀ line ∈ capstanNote, line.IsNarrow := by
    simp [capstanNote, QuotedLine.IsNarrow, QuoteMark.gap]
  exact ⟨hdepth, hnarrow, (stripQuoteMarkers_quoted hdepth).2.mpr hnarrow⟩

/-- Two lines of a text inside two quotes. -/
def bollardNote : List QuotedLine :=
  [⟨[], "ebb".toList, ⟨'e', rfl, rfl, by decide⟩, by simp⟩,
    ⟨[⟨0, true⟩, ⟨1, true⟩], "flow".toList, ⟨'f', rfl, rfl, by decide⟩, by simp⟩]

/-- The text of a paragraph without markup in two quotes. -/
def twiceQuoted? : List Block → Option String
  | [.quoted [.quoted [.paragraph [.text text]]]] => some text
  | _ => none

theorem eq_of_twiceQuoted? {blocks : List Block} {text : String}
    (h : twiceQuoted? blocks = some text) :
    blocks = [.quoted [.quoted [.paragraph [.text text]]]] := by
  unfold twiceQuoted? at h
  split at h
  · cases h
    rfl
  · cases h

/-- The second mark of the second line stays in the text. -/
theorem bollardNote_keeps_mark :
    ['\n'].intercalate (bollardNote.map QuotedLine.written) = "ebb\n>  > flow".toList
      ∧ (∀ line ∈ bollardNote, line.marks.length ≤ 2)
      ∧ stripQuoteMarkers 2 "ebb\n>  > flow".toList = "ebb\n > flow".toList
      ∧ stripQuoteMarkers 2 "ebb\n>  > flow".toList
        ≠ ['\n'].intercalate (bollardNote.map QuotedLine.text)
      ∧ parse "> > ebb\n>  > flow\n"
        = [.quoted [.quoted [.paragraph [.text "ebb\n > flow"]]]] := by
  -- equality of blocks is not decided, that of their texts is
  have hread : twiceQuoted? (parse "> > ebb\n>  > flow\n") = some "ebb\n > flow" := by
    decide +kernel
  exact ⟨rfl, by decide, by decide, by decide, eq_of_twiceQuoted? hread⟩

end Crosslink.Markdown
