import Crosslink.Markdown.Structure
import Crosslink.Proofs.Forms

/-!
# Sources of one or two paragraphs

A line that begins with a bracket or an exclamation mark begins a paragraph
(`Reading.feed_text`), and a blank line ends it (`Reading.feed_blank`). So a
line that is no definition is the only block of its source
(`sourceBlocks_paragraph`). A definition is read both ways until the blank
line after it; then the reading with the definition is kept
(`sourceBlocks_definition`).
-/

namespace Crosslink.Markdown

/-! ## Lines -/

/-- The text stands on one line. -/
def IsLine (text : List Char) : Prop := ∀ c ∈ text, c ≠ '\n' ∧ c ≠ '\r'

@[simp] theorem isLine_nil : IsLine [] := List.forall_mem_nil _

@[simp] theorem isLine_cons {c : Char} {cs : List Char} :
    IsLine (c :: cs) ↔ (c ≠ '\n' ∧ c ≠ '\r') ∧ IsLine cs :=
  List.forall_mem_cons

@[simp] theorem isLine_append {first second : List Char} :
    IsLine (first ++ second) ↔ IsLine first ∧ IsLine second :=
  List.forall_mem_append

theorem splitLines_line {text : List Char} (h : IsLine text) (rest : List Char) :
    splitLines (text ++ '\n' :: rest) = ⟨text, ['\n']⟩ :: splitLines rest := by
  induction text with
  | nil => rw [List.nil_append, splitLines.eq_3 _ _ (by simp), if_pos (.inl rfl)]
  | cons c text ih =>
      obtain ⟨hc, htext⟩ := List.forall_mem_cons.mp h
      rw [List.cons_append, splitLines.eq_3 _ _ (fun _ hreturn => absurd hreturn hc.2),
        if_neg (by simp [hc]), ih htext]

/-- Nothing is skipped where every line has its end. -/
theorem skipped?_eq_none {lines : List SourceLine}
    (h : ∀ line ∈ lines, line.ending ≠ []) : skipped? lines = none := by
  unfold skipped?
  split
  · rename_i source hlast
    have hmem : source ∈ lines :=
      (List.dropWhile_suffix _).subset (hlast ▸ List.mem_singleton_self source)
    refine if_pos (.inl ?_)
    simp [ContentLine.isEnded, ContentLine.ofSource, h source hmem]
  · rfl

/-! ## Lines that begin a paragraph -/

/-- A character that begins captions and labels, and nothing else. -/
def opensText (c : Char) : Bool := c == '[' || c == '!'

/-- A line outside of containers. -/
def outerLine (text : List Char) : ContentLine := ⟨[], .start text, ['\n']⟩

theorem ofSource_start (text : List Char) :
    ContentLine.ofSource ⟨text, ['\n']⟩ (.start text) = outerLine text := by
  simp [ContentLine.ofSource, Position.start, outerLine]

section

variable {c : Char} {cs : List Char}

theorem opensText_cases (h : opensText c = true) : c = '[' ∨ c = '!' := by
  simpa [opensText] using h

theorem splitMetadata_text (h : opensText c = true) (ending : List Char)
    (lines : List SourceLine) :
    splitMetadata (⟨c :: cs, ending⟩ :: lines)
      = ([], ⟨c :: cs, ending⟩ :: lines) := by
  rcases opensText_cases h with rfl | rfl <;> rfl

/-- Neither a container nor a block of another kind begins with the line. -/
structure IsPlainLine (line : ContentLine) : Prop where
  near : line.indent = 0
  filled : line.isBlank = false
  ended : line.isEnded = true
  rule : isThematicBreak line = false
  heading : headingShape? line = none
  fence : fence? line.visible = none
  html : htmlStart? line = none
  quote : quoteMarker? line.place = none
  item : listMarker? line = none

theorem isPlainLine_outerLine (h : opensText c = true) :
    IsPlainLine (outerLine (c :: cs)) := by
  rcases opensText_cases h with rfl | rfl <;>
    exact ⟨rfl, rfl, rfl, rfl, rfl,
      by simp [outerLine, ContentLine.visible, Position.visible, Position.start, fence?,
        isBlankChar], rfl, rfl, rfl⟩

theorem IsPlainLine.openFrames_eq {line : ContentLine} (h : IsPlainLine line) :
    openFrames line = ([], line) := by
  rw [openFrames]
  split
  · rfl
  · split
    · rename_i q hquote
      rw [h.quote] at hquote
      cases hquote
    · split
      · rename_i marker q hlist
        rw [h.item] at hlist
        cases hlist
      · rfl

theorem IsPlainLine.start?_eq {line : ContentLine} (h : IsPlainLine line)
    (outermost : Bool) :
    Leaf.start? outermost false line = some (.paragraph [line]) := by
  have hitem : isUnfinishedItem line = false := by simp [isUnfinishedItem, h.ended]
  have hmark : isUnfinishedMark line = false := by simp [isUnfinishedMark, h.ended]
  simp [Leaf.start?, h.filled, hitem, hmark, h.near, h.rule, h.heading, h.fence, h.html]

end

/-! ## Feeding a line -/

/-- No line is under the line that could make it the header row of a table. -/
def NoRow (next : Option SourceLine) : Prop :=
  ∀ source, next = some source → source.text = []

theorem headsTable_eq_false {next : Option SourceLine} (h : NoRow next)
    (line : ContentLine) : headsTable [] line next = false := by
  cases next with
  | none => rfl
  | some source =>
      obtain ⟨text, ending⟩ := source
      obtain rfl : text = [] := h _ rfl
      simp only [headsTable, Option.any_some, List.reverse_nil, passFrames,
        List.isEmpty_nil, Bool.true_and]
      have hcells :
          delimiterCells? (ContentLine.ofSource ⟨[], ending⟩ (.start [])).visible
            = none := rfl
      rw [isTableStart, hcells]
      cases headerCells? line.visible <;> simp

namespace Reading

theorem feed_text {c : Char} {cs : List Char} (h : opensText c = true)
    {next : Option SourceLine} (hnext : NoRow next) (blocks : List SourceBlock)
    (found : Nat) :
    feed next ⟨c :: cs, ['\n']⟩ ⟨[], none, blocks, found⟩
      = ⟨[], some (.paragraph [outerLine (c :: cs)]), blocks, found⟩ := by
  have hplain : IsPlainLine (outerLine (c :: cs)) := isPlainLine_outerLine h
  simp [feed, passFrames, ofSource_start, feedInside, note, start,
    hplain.openFrames_eq, hplain.start?_eq, headsTable_eq_false hnext]

/-- Nothing begins with a blank line. -/
theorem start_blank (next : Option SourceLine) (blocks : List SourceBlock)
    (found : Nat) :
    start next (outerLine []) ⟨[], none, blocks, found⟩
      = ⟨[], none, blocks, found⟩ := by
  have hopen : openFrames (outerLine []) = ([], outerLine []) := by
    rw [openFrames]
    rfl
  rw [start, hopen]
  rfl

/-- A blank line ends a paragraph or a definition in front of it. -/
theorem feed_blank {leaf : Leaf} (h : leaf.isLazy = true) (next : Option SourceLine)
    (blocks : List SourceBlock) (found : Nat) :
    feed next ⟨[], ['\n']⟩ ⟨[], some leaf, blocks, found⟩
      = add ⟨[], none, blocks, found⟩ (leaf.close []) := by
  have htake : leaf.take? true (outerLine []) = none := by
    cases leaf <;> cases h <;> rfl
  have hindent : leaf.takesIndent = false := by
    cases leaf <;> cases h <;> rfl
  have hbreaks : ∀ sameContainer headsTable,
      Leaf.breaksParagraph sameContainer headsTable (outerLine []) = true :=
    fun _ _ => rfl
  have hinside : feed next ⟨[], ['\n']⟩ ⟨[], some leaf, blocks, found⟩
      = feedInside next true (outerLine []) ⟨[], some leaf, blocks, found⟩ := by
    simp [feed, passFrames, ofSource_start, hbreaks]
  rw [hinside]
  simp only [feedInside, htake, hindent]
  exact start_blank next _ _

end Reading

/-! ## Sources -/

theorem body_outerLine (text : List Char) : (outerLine text).body = text ++ ['\n'] :=
  rfl

section

variable {c : Char} {cs : List Char}

/-- After a line that is no definition there is one reading. -/
theorem next_paragraph (h : opensText c = true)
    (hnone : definition? (c :: cs ++ ['\n']) = none) (blocks : List SourceBlock)
    (found : Nat) :
    Reading.next none ⟨c :: cs, ['\n']⟩ ⟨[], none, blocks, found⟩
      = [⟨[], some (.paragraph [outerLine (c :: cs)]), blocks, found⟩] := by
  have hfeed :
      Reading.feed none ⟨c :: cs, ['\n']⟩ ⟨[], none, blocks, found⟩ = _ :=
    Reading.feed_text h (by simp [NoRow]) blocks found
  rw [List.cons_append] at hnone
  simp [Reading.next, hfeed, Leaf.definition?, body_outerLine, hnone]

/-- After a definition there are two readings. -/
theorem next_definition (h : opensText c = true) {next : Option SourceLine}
    (hnext : NoRow next) {written : WrittenDefinition}
    (hread : definition? (c :: cs ++ ['\n']) = some (written, [])) :
    Reading.next next ⟨c :: cs, ['\n']⟩ {}
      = [⟨[], some (.paragraph [outerLine (c :: cs)]), [], 0⟩,
          ⟨[], some (.definition written [outerLine (c :: cs)]), [], 0⟩] := by
  have hfeed : Reading.feed next ⟨c :: cs, ['\n']⟩ {} = _ :=
    Reading.feed_text h hnext [] 0
  rw [List.cons_append] at hread
  simp [Reading.next, hfeed, Leaf.definition?, body_outerLine, hread]

theorem readLines_paragraph (h : opensText c = true)
    (hnone : definition? (c :: cs ++ ['\n']) = none) (blocks : List SourceBlock)
    (found : Nat) :
    readLines [⟨[], none, blocks, found⟩] [⟨c :: cs, ['\n']⟩]
      = [⟨[], some (.paragraph [outerLine (c :: cs)]), blocks, found⟩] := by
  simp [readLines, next_paragraph h hnone, insert]

/-- A paragraph that is open at the end of a source. -/
theorem finish_paragraph (text : List Char) (blocks : List SourceBlock) (found : Nat) :
    (Reading.finish ⟨[], some (.paragraph [outerLine text]), blocks, found⟩).blocks
      = .paragraph (text ++ ['\n']) :: blocks := by
  simp [Reading.finish, Reading.closeLeaf, Reading.closeFrames, Reading.add, Leaf.close,
    ContentLine.stretch, body_outerLine]

/-- The block of a line that is no definition. -/
theorem sourceBlocks_paragraph (h : opensText c = true) (hline : IsLine (c :: cs))
    (hnone : definition? (c :: cs ++ ['\n']) = none) :
    sourceBlocks (c :: cs ++ ['\n']) = [.paragraph (c :: cs ++ ['\n'])] := by
  have hsplit : splitLines (c :: cs ++ ['\n']) = [⟨c :: cs, ['\n']⟩] :=
    splitLines_line hline []
  have hskip : skipped? [⟨c :: cs, ['\n']⟩] = none := skipped?_eq_none (by simp)
  simp only [sourceBlocks, hsplit, hskip, splitMetadata_text h, bestReading,
    readLines_paragraph h hnone, List.map_cons, List.map_nil, List.foldl_nil,
    finish_paragraph]
  rfl

end

section

variable {c d : Char} {cs ds : List Char} {written : WrittenDefinition}

/-- The reading of a definition as one prevails at the blank line after it. -/
theorem readLines_definition (hc : opensText c = true)
    (hread : definition? (c :: cs ++ ['\n']) = some (written, []))
    (lines : List SourceLine) :
    readLines [{}] (⟨c :: cs, ['\n']⟩ :: ⟨[], ['\n']⟩ :: lines)
      = readLines
          [⟨[], none, [.definition written (c :: cs ++ ['\n'])],
            (SourceBlock.definition written (c :: cs ++ ['\n'])).parts⟩] lines := by
  have hopen : Reading.next (some ⟨[], ['\n']⟩) ⟨c :: cs, ['\n']⟩ {} = _ :=
    next_definition hc (by simp [NoRow]) hread
  have hclose : ∀ leaf : Leaf, leaf.isLazy = true →
      Reading.next lines.head? ⟨[], ['\n']⟩ ⟨[], some leaf, [], 0⟩
        = [Reading.add ⟨[], none, [], 0⟩ (leaf.close [])] := by
    intro leaf hleaf
    rw [Reading.next, Reading.feed_blank hleaf]
    rfl
  have hparagraph := hclose (.paragraph [outerLine (c :: cs)]) rfl
  have hdefinition := hclose (.definition written [outerLine (c :: cs)]) rfl
  -- Both readings are at the same place now, and more parts are better.
  have hmore : ∀ text, (SourceBlock.paragraph text).parts
      < (SourceBlock.definition written text).parts := by
    intro text
    cases htitle : written.title <;> simp [SourceBlock.parts, htitle]
  rw [readLines, List.head?_cons, List.flatMap_singleton, hopen, readLines]
  simp [insert, hparagraph, hdefinition, Reading.agrees, Reading.better, Reading.add,
    Leaf.close, ContentLine.stretch, body_outerLine, hmore]

/-- The blocks of a definition and a line after it that is none. -/
theorem sourceBlocks_definition
    (hc : opensText c = true) (hd : opensText d = true) (hfirst : IsLine (c :: cs))
    (hlast : IsLine (d :: ds))
    (hread : definition? (c :: cs ++ ['\n']) = some (written, []))
    (hnone : definition? (d :: ds ++ ['\n']) = none) :
    sourceBlocks (c :: cs ++ '\n' :: '\n' :: (d :: ds ++ ['\n']))
      = [.definition written (c :: cs ++ ['\n']), .paragraph (d :: ds ++ ['\n'])] := by
  have hsplit : splitLines (c :: cs ++ '\n' :: '\n' :: (d :: ds ++ ['\n']))
      = [⟨c :: cs, ['\n']⟩, ⟨[], ['\n']⟩, ⟨d :: ds, ['\n']⟩] := by
    have hblank : splitLines ([] ++ '\n' :: (d :: ds ++ ['\n'])) = _ :=
      splitLines_line isLine_nil _
    rw [List.nil_append] at hblank
    rw [splitLines_line hfirst, hblank, splitLines_line hlast]
    rfl
  have hskip :
      skipped? [⟨c :: cs, ['\n']⟩, ⟨[], ['\n']⟩, ⟨d :: ds, ['\n']⟩] = none :=
    skipped?_eq_none (by simp)
  have hend := readLines_paragraph hd hnone [.definition written (c :: cs ++ ['\n'])]
    (SourceBlock.definition written (c :: cs ++ ['\n'])).parts
  simp only [sourceBlocks, hsplit, hskip, splitMetadata_text hc, bestReading,
    readLines_definition hc hread, hend, List.map_cons, List.map_nil, List.foldl_nil,
    finish_paragraph]
  rfl

end

/-! ## Sources of a link or an image -/

theorem IsAddress.isLine {destination : List Char} (h : IsAddress destination) :
    IsLine destination := by
  intro c hc
  have hwhite := (h.forall_mem c hc).1
  constructor <;> rintro rfl <;> cases hwhite

theorem isLine_inBrackets {text : List Char} (h : IsLine text) :
    IsLine (inBrackets text) := by
  simpa [inBrackets] using h

namespace Caption

/-- The caption stands on one line, and nothing escapes the bracket that
closes the text of a link. -/
def OnLine : Caption → Prop
  | link text => IsLine text ∧ text.getLast? ≠ some '\\'
  | image alt => IsLine alt

variable {caption : Caption}

theorem OnLine.isLine_written (h : caption.OnLine) : IsLine caption.written := by
  cases caption with
  | link text => exact isLine_inBrackets h.1
  | image alt => exact isLine_cons.mpr ⟨by decide, isLine_inBrackets h⟩

theorem exists_written_eq (caption : Caption) :
    ∃ c cs, caption.written = c :: cs ∧ opensText c = true := by
  cases caption
  · exact ⟨_, _, rfl, rfl⟩
  · exact ⟨_, _, rfl, rfl⟩

/-- What follows a caption does not make it a label. -/
theorem definition?_written (h : caption.Legible) (hline : caption.OnLine) {c : Char}
    (hc : c ≠ ':') (rest : List Char) :
    definition? (caption.written ++ c :: rest) = none := by
  have hlabel :
      label? ((caption.written ++ c :: rest).dropWhile isBlankChar) = none := by
    cases caption with
    | image alt => rfl
    | link text =>
        have hstart : (inBrackets text ++ c :: rest).dropWhile isBlankChar
            = '[' :: (text ++ ']' :: c :: rest) := by
          simp [inBrackets, isBlankChar]
        rw [written, hstart, label?]
        rcases labelBody?_of_not_mem h.1 hline.2 (c :: rest) with hbody | hbody
        · rw [hbody]
        · rw [hbody]
          split
          · rename_i heq
            simp only [Option.some.injEq, Prod.mk.injEq, List.cons.injEq] at heq
            exact absurd heq.2.1 hc
          · rfl
  rw [definition?, hlabel]

/-- The blocks of a page that is a form by path. -/
def pathBlocks (caption : Caption) (destination : List Char) : List SourceBlock :=
  [.paragraph (caption.pathText destination ++ ['\n'])]

def pathSource (caption : Caption) (destination : List Char) : List Char :=
  caption.pathText destination ++ ['\n']

/-- The blocks of a page that is a definition and a form by id. -/
def idBlocks (caption : Caption) (written id destination : List Char) :
    List SourceBlock :=
  [definitionOf id destination,
    .paragraph (caption.idText written ++ ['\n'])]

def idSource (caption : Caption) (written id destination : List Char) : List Char :=
  definitionText id destination
    ++ '\n' :: '\n' :: (caption.idText written ++ ['\n'])

theorem sourceBlocks_pathSource (h : caption.Legible) (hline : caption.OnLine)
    {destination : List Char} (hd : IsAddress destination) :
    sourceBlocks (caption.pathSource destination) = caption.pathBlocks destination := by
  have hform : IsLine (caption.pathText destination) := by
    simp [pathText, inParentheses, hline.isLine_written, hd.isLine]
  have hnone : definition? (caption.pathText destination ++ ['\n']) = none := by
    rw [pathText, List.append_assoc]
    exact definition?_written h hline (by decide) _
  obtain ⟨c, cs, hcs, hc⟩ := caption.exists_written_eq
  rw [pathText, hcs, List.cons_append] at hform hnone
  rw [pathSource, pathBlocks, pathText, hcs, List.cons_append]
  exact sourceBlocks_paragraph hc hform hnone

theorem sourceBlocks_idSource (h : caption.Legible) (hline : caption.OnLine)
    {id destination written : List Char} (hid : IsLabel id) (hidline : IsLine id)
    (hd : IsAddress destination) (hprint : isPrintable destination = true)
    (hwritten : IsLine written) :
    sourceBlocks (caption.idSource written id destination)
      = caption.idBlocks written id destination := by
  have hform : IsLine (caption.idText written) :=
    isLine_append.mpr ⟨hline.isLine_written, isLine_inBrackets hwritten⟩
  have hnone : definition? (caption.idText written ++ ['\n']) = none := by
    rw [idText, List.append_assoc]
    exact definition?_written h hline (by decide) _
  have hlabel : IsLine (definitionText id destination) := by
    simp [definitionText, isLine_inBrackets hidline, hd.isLine]
  have hread := hid.definition?_definitionText hd hprint
  obtain ⟨c, cs, hcs, hc⟩ := caption.exists_written_eq
  rw [idText, hcs, List.cons_append] at hform hnone
  rw [idSource, idBlocks, idText, hcs, List.cons_append]
  exact sourceBlocks_definition rfl hc hlabel hform hread hnone

/-! ## What the blocks are read as -/

theorem toBlocks_pathBlocks (h : caption.Legible) {destination : List Char}
    (hd : IsAddress destination) :
    SourceBlocks.toBlocks 0 (caption.pathBlocks destination)
      = [caption.alone ((caption.byPath destination).toSpan
          (inline (caption.byPath destination).inner)
          (String.ofList (caption.pathText destination)))] := by
  simp only [pathBlocks, SourceBlocks.toBlocks, toBlock?_byPath h hd,
    Option.toList_some, List.append_nil]

theorem toBlocks_idBlocks (h : caption.Legible) {id destination written : List Char}
    (hid : IsLabel id) (hd : IsAddress destination) (hwritten : ']' ∉ written) :
    SourceBlocks.toBlocks 0 (caption.idBlocks written id destination)
      = [.linkDefinition
            ⟨definitionId (inBrackets id), .external (String.ofList destination), none⟩,
          caption.alone (caption.shown.byId (referenceId written caption.plain)
            (String.ofList (caption.idText written)))] := by
  simp only [idBlocks, SourceBlocks.toBlocks, hid.toBlock?_definitionOf hd,
    toBlock?_byId h hwritten, Option.toList_some, List.append_nil,
    List.singleton_append]

end Caption

end Crosslink.Markdown
