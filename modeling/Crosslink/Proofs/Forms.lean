import Crosslink.Markdown.Document
import Crosslink.Resolution.Pass
import Crosslink.Proofs.Pieces

/-!
# Links and images as they are written

A `Caption` stands in front of a link or an image: what it shows, in
brackets, with an exclamation mark before that of an image. An id in
brackets or a destination in parentheses follows. A text that begins with
such a form is read as this form and whatever the rest is
(`Caption.inline_byId`, `Caption.inline_byPath`). In the same way a label
and a destination without blanks are read as a definition
(`definition?_definitionText`).
-/

namespace Crosslink.Markdown

open Unicode (isWhite)

/-! ## One form after the other -/

/-- What a piece of a text shows. -/
def Piece.toSpan : Piece → Span
  | .plain text => .text (String.ofList text)
  | .markup lexeme source =>
    lexeme.toSpan (inline lexeme.inner) (String.ofList source)

theorem inline_eq_map (cs : List Char) :
    inline cs = (pieces cs).map Piece.toSpan := by
  rw [inline, ← List.attach_map_val (f := Piece.toSpan)]
  refine List.map_congr_left fun ⟨piece, hmem⟩ _ => ?_
  cases piece <;> rfl

theorem inline_nil : inline [] = [] := by
  rw [inline_eq_map, pieces.eq_def]
  rfl

theorem pieces_of_match? {form rest : List Char} {lexeme : Lexeme}
    (h : Lexeme.match? (form ++ rest) = some (lexeme, rest)) :
    pieces (form ++ rest) = .markup lexeme form :: pieces rest := by
  have hshort := Lexeme.shortens_match? h
  cases form with
  | nil => exact absurd hshort (Nat.not_lt.mpr (Nat.le_add_left _ _))
  | cons c form =>
      rw [List.cons_append] at h ⊢
      rw [pieces]
      split
      · rename_i found rest' hfound
        rw [h] at hfound
        cases hfound
        simp [Nat.sub_eq_of_eq_add (Nat.add_right_comm form.length rest.length 1)]
      · rename_i hnone
        rw [h] at hnone
        cases hnone

theorem inline_of_match? {form rest : List Char} {lexeme : Lexeme}
    (h : Lexeme.match? (form ++ rest) = some (lexeme, rest)) :
    inline (form ++ rest)
      = lexeme.toSpan (inline lexeme.inner) (String.ofList form) :: inline rest := by
  rw [inline_eq_map, pieces_of_match? h, List.map_cons, ← inline_eq_map, Piece.toSpan]

/-! ## Captions -/

def inBrackets (cs : List Char) : List Char := '[' :: (cs ++ [']'])

def inParentheses (cs : List Char) : List Char := '(' :: (cs ++ [')'])

/-- What a link or an image is written to show. -/
inductive Caption where
  | link (text : List Char)
  | image (alt : List Char)
deriving Repr, DecidableEq

/-- The label of a footnote or a citation. -/
def isMarkedLabel : List Char → Bool
  | c :: label =>
    (c == LabelKind.footnote.mark || c == LabelKind.citation.mark)
      && !label.isEmpty && label.all (!isWhite ·)
  | [] => false

namespace Caption

def written : Caption → List Char
  | link text => inBrackets text
  | image alt => '!' :: inBrackets alt

/-- The caption with an id. -/
def idText (caption : Caption) (id : List Char) : List Char :=
  caption.written ++ inBrackets id

/-- The caption with a destination. -/
def pathText (caption : Caption) (destination : List Char) : List Char :=
  caption.written ++ inParentheses destination

def byId (id : List Char) : Caption → Lexeme
  | link text => .linkById text id
  | image alt => .imageById alt id

def byPath (destination : List Char) : Caption → Lexeme
  | link text => .linkByPath text destination none
  | image alt => .imageByPath alt destination none

def shown : Caption → Appearance
  | link text => .link (inline text)
  | image alt => .image (String.ofList alt)

/-- The caption without markup. It is the id where none is written. -/
def plain : Caption → String
  | link text => Spans.plainText (inline text)
  | image alt => String.ofList alt

/-- No bracket closes the caption early. The text of a link is not empty
and not a label. -/
def Legible : Caption → Prop
  | link text => ']' ∉ text ∧ text ≠ [] ∧ isMarkedLabel text = false
  | image alt => ']' ∉ alt

instance (caption : Caption) : Decidable caption.Legible :=
  match caption with
  | link text => inferInstanceAs (Decidable (']' ∉ text ∧ text ≠ [] ∧ _))
  | image alt => inferInstanceAs (Decidable (']' ∉ alt))

end Caption

/-! ## Reading a caption -/

namespace Lexeme

theorem bracketed?_inBrackets {cs : List Char} (h : ']' ∉ cs) (rest : List Char) :
    bracketed? (inBrackets cs ++ rest) = some (cs, rest) := by
  simp [inBrackets, bracketed?, Text.cutAt_append h]

theorem marked?_eq_none {text : List Char} (h : ']' ∉ text)
    (hlabel : isMarkedLabel text = false) (kind : LabelKind) (rest : List Char) :
    marked? kind.mark (inBrackets text ++ rest) = none := by
  cases text with
  | nil => cases kind <;> simp [inBrackets, marked?, LabelKind.mark]
  | cons c label =>
      have hclosed : ']' ∉ label := fun hmem => h (List.mem_cons_of_mem c hmem)
      simp only [inBrackets, List.cons_append, List.append_assoc, List.nil_append,
        marked?, Text.cutAt_append hclosed]
      split
      · rename_i hmark
        rw [if_neg]
        rintro ⟨hne, hall⟩
        cases kind <;> simp_all [isMarkedLabel]
      · rfl

theorem destination?_inParentheses {destination : List Char}
    (hne : destination ≠ []) (h : ∀ c ∈ destination, isDestinationChar c = true)
    (rest : List Char) :
    destination? (inParentheses destination ++ rest)
      = some (destination, none, rest) := by
  have htake : (destination ++ ')' :: rest).takeWhile isDestinationChar
      = destination := by
    rw [List.takeWhile_append_of_pos h]
    simp [isDestinationChar]
  have hdrop : (destination ++ ')' :: rest).dropWhile isDestinationChar
      = ')' :: rest := by
    rw [List.dropWhile_append_of_pos h]
    simp [isDestinationChar]
  simp [inParentheses, destination?, htake, hdrop, hne]

/-- A text that begins with brackets is a link, unless they are those of a
label. -/
theorem match?_inBrackets {text : List Char} (h : ']' ∉ text)
    (hlabel : isMarkedLabel text = false) (rest : List Char) :
    match? (inBrackets text ++ rest)
      = (linkById? (inBrackets text ++ rest)
          <|> linkByPath? (inBrackets text ++ rest)) := by
  have hcitation : citation? (inBrackets text ++ rest) = none :=
    Option.map_eq_none_iff.mpr (marked?_eq_none h hlabel .citation rest)
  have hfootnote : footnote? (inBrackets text ++ rest) = none :=
    Option.map_eq_none_iff.mpr (marked?_eq_none h hlabel .footnote rest)
  rw [match?, hcitation, hfootnote]
  simp [inBrackets, imageById?, imageByPath?, strong?, emphasis?, code?]

/-- A text that begins with an exclamation mark can only be an image. -/
theorem match?_exclaimed (cs : List Char) :
    match? ('!' :: cs) = (imageById? ('!' :: cs) <|> imageByPath? ('!' :: cs)) := by
  simp [match?, citation?, footnote?, marked?, linkById?, linkByPath?, bracketed?,
    strong?, emphasis?, code?]

end Lexeme

namespace Caption

variable {caption : Caption}

theorem match?_byId (h : caption.Legible) {id : List Char} (hid : ']' ∉ id)
    (rest : List Char) :
    Lexeme.match? (caption.idText id ++ rest)
      = some (caption.byId id, rest) := by
  rw [idText, List.append_assoc]
  cases caption with
  | image alt =>
      rw [written, List.cons_append, Lexeme.match?_exclaimed]
      simp [Lexeme.imageById?, Lexeme.bracketed?_inBrackets h,
        Lexeme.bracketed?_inBrackets hid, byId]
  | link text =>
      obtain ⟨htext, hne, hlabel⟩ := h
      rw [written, Lexeme.match?_inBrackets htext hlabel]
      simp [Lexeme.linkById?, Lexeme.bracketed?_inBrackets htext, hne,
        Lexeme.bracketed?_inBrackets hid, byId]

theorem match?_byPath (h : caption.Legible) {destination : List Char}
    (hne : destination ≠ [])
    (hall : ∀ c ∈ destination, Lexeme.isDestinationChar c = true) (rest : List Char) :
    Lexeme.match? (caption.pathText destination ++ rest)
      = some (caption.byPath destination, rest) := by
  have hread := Lexeme.destination?_inParentheses hne hall rest
  have hclosed : Lexeme.bracketed? (inParentheses destination ++ rest) = none := rfl
  rw [pathText, List.append_assoc]
  cases caption with
  | image alt =>
      rw [written, List.cons_append, Lexeme.match?_exclaimed]
      simp [Lexeme.imageById?, Lexeme.imageByPath?, Lexeme.bracketed?_inBrackets h,
        hclosed, hread, byPath]
  | link text =>
      obtain ⟨htext, hempty, hlabel⟩ := h
      rw [written, Lexeme.match?_inBrackets htext hlabel]
      simp [Lexeme.linkById?, Lexeme.linkByPath?, Lexeme.bracketed?_inBrackets htext,
        hempty, hclosed, hread, byPath]

/-- A text that begins with a reference by id. -/
theorem inline_byId (h : caption.Legible) {id : List Char} (hid : ']' ∉ id)
    (rest : List Char) :
    inline (caption.idText id ++ rest)
      = caption.shown.byId (referenceId id caption.plain)
          (String.ofList (caption.idText id)) :: inline rest := by
  rw [inline_of_match? (match?_byId h hid rest)]
  cases caption <;> rfl

end Caption

/-! ## Destinations -/

/-- A destination as it can stand in every form: without white space,
parentheses, angle brackets and backslashes. -/
def isBare (destination : List Char) : Bool :=
  destination.all fun c =>
    !(isWhite c || ['(', ')', '<', '>', '\\'].contains c)

/-- An external destination that every form can hold. -/
structure IsAddress (destination : List Char) : Prop where
  bare : isBare destination = true
  external : isExternalUrl (String.ofList destination) = true

/-- No character is a control character. -/
def isPrintable (destination : List Char) : Bool :=
  destination.all fun c => decide (0x20 < c.toNat) && c.toNat != 0x7f

namespace IsAddress

variable {destination : List Char}

/-- An address names a host or begins with a scheme. -/
theorem cases (h : IsAddress destination) :
    (∃ host, destination = '/' :: '/' :: host)
      ∨ ∃ c scheme rest, destination = c :: (scheme ++ ':' :: rest)
        ∧ c.isAlpha = true := by
  have hext := h.external
  unfold isExternalUrl at hext
  rw [String.toList_ofList] at hext
  split at hext
  · exact .inl ⟨_, rfl⟩
  · split at hext
    · rename_i scheme rest hcut
      cases scheme with
      | nil => cases hext
      | cons c scheme =>
          rw [isScheme, Bool.and_eq_true] at hext
          exact .inr ⟨c, scheme, rest, Text.eq_of_cutAt hcut, hext.1⟩
    · cases hext

theorem ne_nil (h : IsAddress destination) : destination ≠ [] := by
  rintro rfl
  rcases h.cases with ⟨host, heq⟩ | ⟨c, scheme, rest, heq, -⟩ <;> cases heq

/-- Nothing that leads out of the tree is an alias. -/
theorem aliasTarget?_eq_none (h : IsAddress destination) :
    aliasTarget? destination = none := by
  obtain ⟨mark, hmem, hmark⟩ :
      ∃ mark ∈ destination, isAddressChar mark = true ∧ mark ≠ '_' := by
    rcases h.cases with ⟨host, rfl⟩ | ⟨c, scheme, rest, rfl, -⟩
    · exact ⟨'/', by simp, by decide⟩
    · exact ⟨':', by simp, by decide⟩
  rw [aliasTarget?, if_neg]
  rintro ⟨hlast, -, hname⟩
  have hsplit : destination = destination.dropLast ++ ['_'] := by
    obtain ⟨front, rfl⟩ := List.getLast?_eq_some_iff.mp hlast
    rw [List.dropLast_concat]
  rw [hsplit, List.mem_append, List.mem_singleton] at hmem
  have hfree := List.all_eq_true.mp hname mark (hmem.resolve_right hmark.2)
  rw [hmark.1] at hfree
  cases hfree

theorem forall_mem (h : IsAddress destination) :
    ∀ c ∈ destination, isWhite c = false
      ∧ c ≠ '(' ∧ c ≠ ')' ∧ c ≠ '<' ∧ c ≠ '>' ∧ c ≠ '\\' := by
  have hbare := h.bare
  rw [isBare, List.all_eq_true] at hbare
  intro c hc
  simpa using hbare c hc

theorem isDestinationChar (h : IsAddress destination) :
    ∀ c ∈ destination, Lexeme.isDestinationChar c = true := by
  intro c hc
  obtain ⟨hwhite, -, hparen, -⟩ := h.forall_mem c hc
  simp [Lexeme.isDestinationChar, hwhite, hparen]

theorem bareDestination_eq (h : IsAddress destination) :
    bareDestination destination = destination := by
  have hfront : destination.dropWhile (· = '<') = destination := by
    obtain ⟨c, cs, rfl⟩ := List.exists_cons_of_ne_nil h.ne_nil
    obtain ⟨-, -, -, hopen, -⟩ := h.forall_mem c List.mem_cons_self
    exact List.dropWhile_cons_of_neg (by simpa using hopen)
  rw [bareDestination, hfront]
  refine Text.dropEndWhile_eq_self fun c hc => ?_
  obtain ⟨-, -, -, -, hclose, -⟩ := h.forall_mem c hc
  simpa using hclose

end IsAddress

/-- A text that begins with a form by path. -/
theorem Caption.inline_byPath {caption : Caption} (h : caption.Legible)
    {destination : List Char} (hd : IsAddress destination) (rest : List Char) :
    inline (caption.pathText destination ++ rest)
      = (caption.byPath destination).toSpan (inline (caption.byPath destination).inner)
          (String.ofList (caption.pathText destination))
        :: inline rest :=
  inline_of_match? (match?_byPath h hd.ne_nil hd.isDestinationChar rest)

/-! ## Definitions -/

/-- What may stand in brackets as the label of a definition, and only of a
definition. -/
structure IsLabel (id : List Char) : Prop where
  closed : ']' ∉ id
  read : label? (inBrackets id ++ [':']) = some (inBrackets id, [])
  unmarked : isMarkedLabel id = false

def definitionText (id destination : List Char) : List Char :=
  inBrackets id ++ ':' :: ' ' :: destination

theorem readBefore_eq_some {front read rest : List Char}
    {found : Option (List Char × List Char)}
    (h : readBefore front found = some (read, rest)) :
    ∃ later, found = some (later, rest) ∧ read = front ++ later := by
  cases found with
  | none => cases h
  | some found => cases h; exact ⟨found.1, rfl, rfl⟩

theorem labelBody?_append {cs body rest : List Char}
    (h : labelBody? cs = some (body, rest)) (more : List Char) :
    labelBody? (cs ++ more) = some (body, rest ++ more) := by
  fun_induction labelBody? cs generalizing body rest with
  | case1 => cases h
  | case2 cs => cases h; rfl
  | case3 cs => cases h
  | case4 c cs ih =>
      obtain ⟨later, hlater, rfl⟩ := readBefore_eq_some h
      rw [List.cons_append, List.cons_append, labelBody?, ih hlater]
      rfl
  | case5 c cs hclose hopen hescape ih =>
      obtain ⟨later, hlater, rfl⟩ := readBefore_eq_some h
      have hnext : ∀ d ds, c = '\\' → cs ++ more = d :: ds → False := by
        intro d ds hc hcs
        cases cs with
        | nil => cases hlater
        | cons e cs => exact hescape e cs hc rfl
      rw [List.cons_append, labelBody?.eq_5 _ _ hclose hopen hnext, ih hlater]
      rfl

/-- A closing bracket that nothing escapes ends the label. -/
theorem labelBody?_of_not_mem {text : List Char} (hclosed : ']' ∉ text)
    (hescape : text.getLast? ≠ some '\\') (rest : List Char) :
    labelBody? (text ++ ']' :: rest) = none
      ∨ labelBody? (text ++ ']' :: rest) = some (text, rest) := by
  have htail : ∀ c (cs : List Char),
      (c :: cs).getLast? ≠ some '\\' → cs.getLast? ≠ some '\\' := by
    intro c cs hne hlast
    rw [List.getLast?_cons, hlast] at hne
    exact hne rfl
  induction text using labelBody?.induct with
  | case1 => exact .inr rfl
  | case2 cs => exact absurd List.mem_cons_self hclosed
  | case3 cs => exact .inl rfl
  | case4 c cs ih =>
      rw [List.cons_append, List.cons_append, labelBody?]
      rcases ih (fun hmem => hclosed (by simp [hmem]))
        (htail c cs (htail _ _ hescape)) with hnone | hsome
      · exact .inl (by rw [hnone]; rfl)
      · exact .inr (by rw [hsome]; rfl)
  | case5 c cs hclose hopen hlater ih =>
      -- An escape takes in the next character, so it cannot be the last one.
      have hc : c ≠ '\\' := by
        rintro rfl
        cases cs with
        | nil => exact hescape rfl
        | cons d ds => exact hlater d ds rfl rfl
      rw [List.cons_append,
        labelBody?.eq_5 _ _ hclose hopen fun _ _ h => absurd h hc]
      rcases ih (fun hmem => hclosed (List.mem_cons_of_mem c hmem))
        (htail c cs hescape) with hnone | hsome
      · exact .inl (by rw [hnone]; rfl)
      · exact .inr (by rw [hsome]; rfl)

/-- A destination without blanks and control characters is read to the end
of its line. -/
theorem bareBody?_line {destination : List Char} (hbare : isBare destination = true)
    (hprint : isPrintable destination = true) :
    bareBody? 0 (destination ++ ['\n']) = some (destination, ['\n']) := by
  induction destination with
  | nil => rfl
  | cons c destination ih =>
      rw [isBare, List.all_cons, Bool.and_eq_true] at hbare
      rw [isPrintable, List.all_cons, Bool.and_eq_true] at hprint
      obtain ⟨-, hopen, hclose, -, -, hescape⟩ : isWhite c = false
          ∧ c ≠ '(' ∧ c ≠ ')' ∧ c ≠ '<' ∧ c ≠ '>' ∧ c ≠ '\\' := by
        simpa using hbare.1
      have hvisible : ¬ (c.toNat ≤ 0x20 ∨ c.toNat = 0x7f) := by
        have hc := hprint.1
        simp only [Bool.and_eq_true, decide_eq_true_eq, bne_iff_ne] at hc
        omega
      rw [List.cons_append,
        bareBody?.eq_6 _ _ _ (fun _ _ hc _ => hescape hc) hopen hclose,
        if_neg hvisible, ih hbare.2 hprint.2]
      rfl

/-- A gap in front of something visible on the same line. -/
theorem passGap_blank {c : Char} (h : isWhite c = false) (cs : List Char) :
    passGap (' ' :: c :: cs) = c :: cs := by
  have hne : ∀ d, isWhite d = true → c ≠ d := by
    rintro d hd rfl
    rw [h] at hd
    cases hd
  have hblank : isBlankChar c = false := by
    simp [isBlankChar, hne ' ' (by decide), hne '\t' (by decide)]
  have hdrop : (' ' :: c :: cs).dropWhile isBlankChar = c :: cs := by
    rw [List.dropWhile_cons_of_pos (by decide),
      List.dropWhile_cons_of_neg (by simp [hblank])]
  have hline : afterLineEnd? (c :: cs) = none := by
    unfold afterLineEnd?
    split
    · exact absurd (List.cons.inj ‹_›).1 (hne '\r' (by decide))
    · exact absurd (List.cons.inj ‹_›).1 (hne '\n' (by decide))
    · exact absurd (List.cons.inj ‹_›).1 (hne '\r' (by decide))
    · rfl
  simp only [passGap, hdrop, hline]

theorem definitionDestination?_line {destination : List Char}
    (h : IsAddress destination) (hprint : isPrintable destination = true) :
    definitionDestination? (destination ++ ['\n']) = some (destination, ['\n']) := by
  have hbody := bareBody?_line h.bare hprint
  obtain ⟨c, cs, rfl⟩ := List.exists_cons_of_ne_nil h.ne_nil
  obtain ⟨-, -, -, hopen, -⟩ := h.forall_mem c List.mem_cons_self
  rw [List.cons_append] at hbody ⊢
  unfold definitionDestination?
  split
  · rename_i heq
    exact absurd (List.cons.inj heq).1 hopen
  · rw [hbody]

namespace IsLabel

variable {id : List Char}

theorem label?_eq (h : IsLabel id) (rest : List Char) :
    label? (inBrackets id ++ ':' :: rest) = some (inBrackets id, rest) := by
  have hread := h.read
  simp only [inBrackets, List.cons_append, List.append_assoc, List.nil_append, label?]
    at hread ⊢
  split at hread
  · rename_i body after hbody
    have hlonger := labelBody?_append hbody rest
    simp only [List.append_assoc, List.cons_append, List.nil_append] at hlonger
    split at hread
    · cases hread
    · rename_i htask
      simp only [Option.some.injEq, Prod.mk.injEq, List.cons.injEq, true_and] at hread
      obtain ⟨heq, rfl⟩ := hread
      obtain rfl := List.append_cancel_right heq
      simp [hlonger, htask]
  · cases hread

/-- A definition without a title is read as one. -/
theorem definition?_definitionText (h : IsLabel id) {destination : List Char}
    (hd : IsAddress destination) (hprint : isPrintable destination = true) :
    definition? (definitionText id destination ++ ['\n'])
      = some (⟨inBrackets id, destination, none⟩, []) := by
  have hlabel := h.label?_eq (' ' :: (destination ++ ['\n']))
  have hgap : passGap (' ' :: (destination ++ ['\n'])) = destination ++ ['\n'] := by
    obtain ⟨c, cs, rfl⟩ := List.exists_cons_of_ne_nil hd.ne_nil
    exact passGap_blank (hd.forall_mem c List.mem_cons_self).1 _
  have hstart : (definitionText id destination ++ ['\n']).dropWhile isBlankChar
      = inBrackets id ++ ':' :: ' ' :: (destination ++ ['\n']) := by
    simp [definitionText, inBrackets, isBlankChar]
  rw [definition?, hstart, hlabel]
  simp only [hgap, definitionDestination?_line hd hprint]
  rfl

/-- The id of a definition is its label, unless that is an underscore. -/
theorem definitionId_inBrackets (h : IsLabel id) :
    definitionId (inBrackets id) = if id = ['_'] then "" else String.ofList id := by
  have hfront : (inBrackets id).dropWhile (· = '[') = id ++ [']'] := by
    have hread := h.read
    rw [inBrackets, List.dropWhile_cons_of_pos (by simp)]
    cases id with
    | nil => simp
    | cons c id =>
        refine List.dropWhile_cons_of_neg ?_
        rw [decide_eq_true_iff]
        rintro rfl
        simp [inBrackets, label?, labelBody?] at hread
  have hback : Text.dropEndWhile (· = ']') (id ++ [']']) = id := by
    rw [Text.dropEndWhile_append _ (by simp)]
    refine Text.dropEndWhile_eq_self fun c hc => decide_eq_false ?_
    rintro rfl
    exact h.closed hc
  rw [definitionId, hfront, hback]

theorem ne_nil (h : IsLabel id) : id ≠ [] := by
  rintro rfl
  have hread := h.read
  simp [inBrackets, label?, labelBody?, isTaskLabel] at hread

/-- A reference to the label itself means the definition. -/
theorem referenceId_eq (h : IsLabel id) (text : String) :
    referenceId id text = definitionId (inBrackets id) := by
  rw [h.definitionId_inBrackets, referenceId, if_neg h.ne_nil]

end IsLabel

/-! ## Blocks -/

/-- The definition of `id` as a block of a source. -/
def definitionOf (id destination : List Char) : SourceBlock :=
  .definition ⟨inBrackets id, destination, none⟩
    (definitionText id destination ++ ['\n'])

theorem labelled?_eq_none {text : List Char} (h : ']' ∉ text)
    (hlabel : isMarkedLabel text = false) (rest : List Char) :
    labelled? (inBrackets text ++ rest) = none := by
  have hkind : ∀ kind, labelledAs? kind (inBrackets text ++ rest) = none := by
    intro kind
    rw [labelledAs?, Lexeme.marked?_eq_none h hlabel]
  rw [labelled?, hkind, hkind]

theorem IsLabel.toBlock?_definitionOf {id destination : List Char} (h : IsLabel id)
    (hd : IsAddress destination) :
    (definitionOf id destination).toBlock? 0
      = some (.linkDefinition
          ⟨definitionId (inBrackets id), .external (String.ofList destination),
            none⟩) := by
  have htrim : Text.trim (definitionText id destination ++ ['\n'])
      = definitionText id destination := by
    obtain ⟨front, last, rfl⟩ :=
      (List.eq_nil_or_concat destination).resolve_left hd.ne_nil
    have hlast := (hd.forall_mem last (by simp)).1
    simpa [definitionText, inBrackets] using
      Text.trim_line (id ++ ']' :: ':' :: ' ' :: front) (by decide) hlast
  have hlabelled : labelled? (definitionText id destination) = none :=
    labelled?_eq_none h.closed h.unmarked _
  simp only [definitionOf, SourceBlock.toBlock?, definitionBlock, htrim, hlabelled,
    hd.bareDestination_eq, hd.aliasTarget?_eq_none, definitionTarget, hd.external]
  rfl

namespace Caption

variable {caption : Caption}

/-- The block of a paragraph that is nothing but this link or image. -/
def alone (span : Span) : Caption → Block
  | link _ => .paragraph [span]
  | image _ => Scope.blockOfSpan span

theorem toBlock?_paragraph (h : caption.Legible) (middle : List Char) {last : Char}
    (hlast : isWhite last = false) :
    (SourceBlock.paragraph (caption.written ++ (middle ++ [last]) ++ ['\n'])).toBlock? 0
      = some (plainParagraph (caption.written ++ (middle ++ [last]))) := by
  have htrim : Text.trim (caption.written ++ (middle ++ [last]) ++ ['\n'])
      = caption.written ++ (middle ++ [last]) := by
    cases caption with
    | link text =>
        simpa [written, inBrackets] using
          Text.trim_line (text ++ ']' :: middle) (by decide) hlast
    | image alt =>
        simpa [written, inBrackets] using
          Text.trim_line ('[' :: (alt ++ ']' :: middle)) (by decide) hlast
  have hlabelled : labelled? (caption.written ++ (middle ++ [last])) = none := by
    cases caption with
    | link text => exact labelled?_eq_none h.1 h.2.2 _
    | image alt => rfl
  have hvisible : (caption.written ++ (middle ++ [last])).isEmpty = false := by
    cases caption <;> rfl
  have hplain : paragraphBlock (caption.written ++ (middle ++ [last]))
      = plainParagraph (caption.written ++ (middle ++ [last])) := by
    rw [paragraphBlock]
    split
    · rename_i hfound
      rw [hlabelled] at hfound
      cases hfound
    · rfl
  simp only [SourceBlock.toBlock?, stripQuoteMarkers, if_pos, htrim, hvisible, hplain]
  rfl

theorem explicitId?_written (caption : Caption) (rest : List Char) :
    explicitId? (caption.written ++ rest) = none := by
  cases caption <;> rfl

/-- A reference by id on a line of its own. -/
theorem toBlock?_byId (h : caption.Legible) {id : List Char} (hid : ']' ∉ id) :
    (SourceBlock.paragraph (caption.idText id ++ ['\n'])).toBlock? 0
      = some (caption.alone (caption.shown.byId (referenceId id caption.plain)
          (String.ofList (caption.idText id)))) := by
  have hread := inline_byId h hid []
  rw [List.append_nil, inline_nil] at hread
  have hform : caption.idText id = caption.written ++ ('[' :: id ++ [']']) := rfl
  rw [hform, toBlock?_paragraph h _ (by decide), plainParagraph, explicitId?_written,
    ← hform, hread]
  cases caption <;> rfl

/-- A form by path on a line of its own. -/
theorem toBlock?_byPath (h : caption.Legible) {destination : List Char}
    (hd : IsAddress destination) :
    (SourceBlock.paragraph (caption.pathText destination ++ ['\n'])).toBlock? 0
      = some (caption.alone
          ((caption.byPath destination).toSpan
            (inline (caption.byPath destination).inner)
            (String.ofList (caption.pathText destination)))) := by
  have hread := inline_byPath h hd []
  rw [List.append_nil, inline_nil] at hread
  have hform : caption.pathText destination
      = caption.written ++ ('(' :: destination ++ [')']) := rfl
  rw [hform, toBlock?_paragraph h _ (by decide), plainParagraph, explicitId?_written,
    ← hform, hread]
  cases caption with
  | link text => simp only [byPath, Lexeme.toSpan, hd.external]; rfl
  | image alt =>
      simp only [byPath, Lexeme.toSpan, Lexeme.pathReference]
      cases WrittenPath.parse (String.ofList destination) <;> rfl

end Caption

end Crosslink.Markdown
