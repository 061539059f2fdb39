import Crosslink.Text.Basic

/-!
# Inline markup

The inline forms of a document as they are written: images and links by id
and by path, citation and footnote references, strong and emphasized text,
and code. `Lexeme.match?` recognises the form at the start of a text, the
first in the order of the list above that fits; `pieces` cuts a text into
such forms and the plain text between them. Nothing is escaped, and a form
does not look beyond the first closing mark.
-/

namespace Crosslink.Markdown

open Unicode (isWhite)

/-- One inline form. -/
inductive Lexeme where
  | imageById (alt id : List Char)
  | imageByPath (alt destination : List Char) (title : Option (List Char))
  | citation (label : List Char)
  | footnote (label : List Char)
  | linkById (text id : List Char)
  | linkByPath (text destination : List Char) (title : Option (List Char))
  | strong (text : List Char)
  | emphasis (text : List Char)
  | code (text : List Char)
deriving Repr, DecidableEq

namespace Lexeme

/-- The part that holds inline markup itself. -/
def inner : Lexeme → List Char
  | linkById text _ => text
  | linkByPath text _ _ => text
  | strong text => text
  | emphasis text => text
  | _ => []

/-! ## Parts -/

def bracketed? : List Char → Option (List Char × List Char)
  | '[' :: cs => Text.cutAt ']' cs
  | _ => none

/-- A label in square brackets, marked by its first character. -/
def marked? (mark : Char) : List Char → Option (List Char × List Char)
  | '[' :: c :: cs =>
    if c = mark then
      match Text.cutAt ']' cs with
      | some (label, rest) =>
        if label ≠ [] ∧ label.all (!isWhite ·) then some (label, rest) else none
      | none => none
    else none
  | _ => none

def isDestinationChar (c : Char) : Bool := c != ')' && !isWhite c

/-- A title in quotes after white space, before the closing parenthesis. -/
def title? (cs : List Char) : Option (List Char × List Char) :=
  if (cs.takeWhile isWhite).isEmpty then none
  else
    match cs.dropWhile isWhite with
    | '"' :: cs =>
      match Text.cutAt '"' cs with
      | some (title, ')' :: rest) => some (title, rest)
      | _ => none
    | _ => none

/-- A destination in parentheses, with or without a title. -/
def destination? :
    List Char → Option (List Char × Option (List Char) × List Char)
  | '(' :: cs =>
    let destination := cs.takeWhile isDestinationChar
    if destination.isEmpty then none
    else
      match cs.dropWhile isDestinationChar with
      | ')' :: rest => some (destination, none, rest)
      | more =>
        (title? more).map fun (title, rest) => (destination, some title, rest)
  | _ => none

/-! ## Forms -/

/-- `![alt][id]` -/
def imageById? : List Char → Option (Lexeme × List Char)
  | '!' :: cs =>
    match bracketed? cs with
    | some (alt, rest) =>
      (bracketed? rest).map fun (id, rest) => (imageById alt id, rest)
    | none => none
  | _ => none

/-- `![alt](destination "title")` -/
def imageByPath? : List Char → Option (Lexeme × List Char)
  | '!' :: cs =>
    match bracketed? cs with
    | some (alt, rest) =>
      (destination? rest).map fun (destination, title, rest) =>
        (imageByPath alt destination title, rest)
    | none => none
  | _ => none

/-- `[@label]` -/
def citation? (cs : List Char) : Option (Lexeme × List Char) :=
  (marked? '@' cs).map fun (label, rest) => (citation label, rest)

/-- `[^label]` -/
def footnote? (cs : List Char) : Option (Lexeme × List Char) :=
  (marked? '^' cs).map fun (label, rest) => (footnote label, rest)

/-- `[text][id]` -/
def linkById? (cs : List Char) : Option (Lexeme × List Char) :=
  match bracketed? cs with
  | some (text, rest) =>
    if text.isEmpty then none
    else (bracketed? rest).map fun (id, rest) => (linkById text id, rest)
  | none => none

/-- `[text](destination "title")` -/
def linkByPath? (cs : List Char) : Option (Lexeme × List Char) :=
  match bracketed? cs with
  | some (text, rest) =>
    if text.isEmpty then none
    else
      (destination? rest).map fun (destination, title, rest) =>
        (linkByPath text destination title, rest)
  | none => none

/-- `**text**` -/
def strong? : List Char → Option (Lexeme × List Char)
  | '*' :: '*' :: cs =>
    match Text.cutAt '*' cs with
    | some (text, '*' :: rest) =>
      if text.isEmpty then none else some (strong text, rest)
    | _ => none
  | _ => none

/-- `*text*` -/
def emphasis? : List Char → Option (Lexeme × List Char)
  | '*' :: cs =>
    match Text.cutAt '*' cs with
    | some (text, rest) =>
      if text.isEmpty then none else some (emphasis text, rest)
    | none => none
  | _ => none

/-- Code between backticks. -/
def code? : List Char → Option (Lexeme × List Char)
  | '\x60' :: cs =>
    match Text.cutAt '\x60' cs with
    | some (text, rest) =>
      if text.isEmpty then none else some (code text, rest)
    | none => none
  | _ => none

/-- The form at the start of a text, and the rest. -/
def match? (cs : List Char) : Option (Lexeme × List Char) :=
  imageById? cs <|> imageByPath? cs <|> citation? cs <|> footnote? cs
    <|> linkById? cs <|> linkByPath? cs <|> strong? cs <|> emphasis? cs
    <|> code? cs

/-! ## A form is longer than what is left of it -/

theorem length_bracketed? {cs text rest : List Char}
    (h : bracketed? cs = some (text, rest)) :
    cs.length = text.length + rest.length + 2 := by
  unfold bracketed? at h
  split at h
  · simp [Text.eq_of_cutAt h]; omega
  · simp at h

theorem length_marked? {mark : Char} {cs label rest : List Char}
    (h : marked? mark cs = some (label, rest)) :
    cs.length = label.length + rest.length + 3 := by
  unfold marked? at h
  split at h
  · split at h
    · split at h
      · rename_i hcut
        split at h
        · simp only [Option.some.injEq, Prod.mk.injEq] at h
          obtain ⟨rfl, rfl⟩ := h
          simp [Text.eq_of_cutAt hcut]; omega
        · simp at h
      · simp at h
    · simp at h
  · simp at h

theorem length_title? {cs title rest : List Char}
    (h : title? cs = some (title, rest)) : rest.length < cs.length := by
  unfold title? at h
  split at h
  · simp at h
  · split at h
    · rename_i more hdrop
      split at h
      · rename_i hcut
        simp only [Option.some.injEq, Prod.mk.injEq] at h
        obtain ⟨rfl, rfl⟩ := h
        have hle := (cs.dropWhile_suffix isWhite).length_le
        rw [hdrop, Text.eq_of_cutAt hcut] at hle
        simp at hle
        omega
      · simp at h
    · simp at h

theorem length_destination? {cs destination rest : List Char}
    {title : Option (List Char)}
    (h : destination? cs = some (destination, title, rest)) :
    rest.length < cs.length := by
  unfold destination? at h
  split at h
  · rename_i more
    have hle := (more.dropWhile_suffix isDestinationChar).length_le
    dsimp only at h
    split at h
    · simp at h
    · split at h
      · rename_i hdrop
        simp only [Option.some.injEq, Prod.mk.injEq] at h
        obtain ⟨rfl, rfl, rfl⟩ := h
        rw [hdrop] at hle
        simp at hle ⊢
        omega
      · obtain ⟨⟨t, r⟩, htitle, heq⟩ := Option.map_eq_some_iff.1 h
        simp only [Prod.mk.injEq] at heq
        obtain ⟨rfl, rfl, rfl⟩ := heq
        have := length_title? htitle
        simp
        omega
  · simp at h

/-- What is left after a form, and what is inside it, are together shorter
than the text. -/
def Shortens (form : List Char → Option (Lexeme × List Char)) : Prop :=
  ∀ ⦃cs lexeme rest⦄, form cs = some (lexeme, rest) →
    lexeme.inner.length + rest.length < cs.length

theorem shortens_orElse {f g : List Char → Option (Lexeme × List Char)}
    (hf : Shortens f) (hg : Shortens g) :
    Shortens fun cs => f cs <|> g cs := by
  intro cs lexeme rest h
  cases hfc : f cs with
  | none =>
    simp only [hfc, Option.orElse_eq_orElse, Option.orElse_none] at h
    exact hg h
  | some found =>
    simp [hfc] at h
    exact hf (h ▸ hfc)

theorem shortens_imageById? : Shortens imageById? := by
  intro cs lexeme rest h
  unfold imageById? at h
  split at h
  · split at h
    · rename_i hb
      obtain ⟨⟨id, r⟩, hi, heq⟩ := Option.map_eq_some_iff.1 h
      simp only [Prod.mk.injEq] at heq
      obtain ⟨rfl, rfl⟩ := heq
      have := length_bracketed? hb
      have := length_bracketed? hi
      simp [inner]
      omega
    · simp at h
  · simp at h

theorem shortens_imageByPath? : Shortens imageByPath? := by
  intro cs lexeme rest h
  unfold imageByPath? at h
  split at h
  · split at h
    · rename_i hb
      obtain ⟨⟨d, t, r⟩, hd, heq⟩ := Option.map_eq_some_iff.1 h
      simp only [Prod.mk.injEq] at heq
      obtain ⟨rfl, rfl⟩ := heq
      have := length_bracketed? hb
      have := length_destination? hd
      simp [inner]
      omega
    · simp at h
  · simp at h

theorem shortens_citation? : Shortens citation? := by
  intro cs lexeme rest h
  obtain ⟨⟨label, r⟩, hm, heq⟩ := Option.map_eq_some_iff.1 h
  simp only [Prod.mk.injEq] at heq
  obtain ⟨rfl, rfl⟩ := heq
  have := length_marked? hm
  simp [inner]
  omega

theorem shortens_footnote? : Shortens footnote? := by
  intro cs lexeme rest h
  obtain ⟨⟨label, r⟩, hm, heq⟩ := Option.map_eq_some_iff.1 h
  simp only [Prod.mk.injEq] at heq
  obtain ⟨rfl, rfl⟩ := heq
  have := length_marked? hm
  simp [inner]
  omega

theorem shortens_linkById? : Shortens linkById? := by
  intro cs lexeme rest h
  unfold linkById? at h
  split at h
  · rename_i hb
    split at h
    · simp at h
    · obtain ⟨⟨id, r⟩, hi, heq⟩ := Option.map_eq_some_iff.1 h
      simp only [Prod.mk.injEq] at heq
      obtain ⟨rfl, rfl⟩ := heq
      have := length_bracketed? hb
      have := length_bracketed? hi
      simp [inner]
      omega
  · simp at h

theorem shortens_linkByPath? : Shortens linkByPath? := by
  intro cs lexeme rest h
  unfold linkByPath? at h
  split at h
  · rename_i hb
    split at h
    · simp at h
    · obtain ⟨⟨d, t, r⟩, hd, heq⟩ := Option.map_eq_some_iff.1 h
      simp only [Prod.mk.injEq] at heq
      obtain ⟨rfl, rfl⟩ := heq
      have := length_bracketed? hb
      have := length_destination? hd
      simp [inner]
      omega
  · simp at h

theorem shortens_strong? : Shortens strong? := by
  intro cs lexeme rest h
  unfold strong? at h
  split at h
  · split at h
    · rename_i hcut
      split at h
      · simp at h
      · simp only [Option.some.injEq, Prod.mk.injEq] at h
        obtain ⟨rfl, rfl⟩ := h
        have hlength := Text.length_of_cutAt hcut
        simp only [inner, List.length_cons] at hlength ⊢
        omega
    · simp at h
  · simp at h

theorem shortens_emphasis? : Shortens emphasis? := by
  intro cs lexeme rest h
  unfold emphasis? at h
  split at h
  · split at h
    · rename_i hcut
      split at h
      · simp at h
      · simp only [Option.some.injEq, Prod.mk.injEq] at h
        obtain ⟨rfl, rfl⟩ := h
        have hlength := Text.length_of_cutAt hcut
        simp only [inner, List.length_cons] at hlength ⊢
        omega
    · simp at h
  · simp at h

theorem shortens_code? : Shortens code? := by
  intro cs lexeme rest h
  unfold code? at h
  split at h
  · split at h
    · rename_i hcut
      split at h
      · simp at h
      · simp only [Option.some.injEq, Prod.mk.injEq] at h
        obtain ⟨rfl, rfl⟩ := h
        have hlength := Text.length_of_cutAt hcut
        simp only [inner, List.length_cons, List.length_nil] at hlength ⊢
        omega
    · simp at h
  · simp at h

theorem shortens_match? : Shortens match? :=
  shortens_orElse shortens_imageById? <|
  shortens_orElse shortens_imageByPath? <|
  shortens_orElse shortens_citation? <|
  shortens_orElse shortens_footnote? <|
  shortens_orElse shortens_linkById? <|
  shortens_orElse shortens_linkByPath? <|
  shortens_orElse shortens_strong? <|
  shortens_orElse shortens_emphasis? shortens_code?

end Lexeme

/-! ## Cutting a text into forms -/

/-- Plain text, or an inline form and the text it is written as. -/
inductive Piece where
  | plain (text : List Char)
  | markup (lexeme : Lexeme) (source : List Char)
deriving Repr, DecidableEq

/-- Puts a plain character in front. -/
def addPlain (c : Char) : List Piece → List Piece
  | .plain text :: pieces => .plain (c :: text) :: pieces
  | pieces => .plain [c] :: pieces

/-- The pieces of a text, from left to right. -/
def pieces : List Char → List Piece
  | [] => []
  | c :: cs =>
    match h : Lexeme.match? (c :: cs) with
    | some (lexeme, rest) =>
      have := Lexeme.shortens_match? h
      .markup lexeme ((c :: cs).take ((c :: cs).length - rest.length))
        :: pieces rest
    | none => addPlain c (pieces cs)
termination_by cs => cs.length
decreasing_by
  · omega
  · simp

theorem mem_of_mem_addPlain {c : Char} {ps : List Piece} {lexeme : Lexeme}
    {source : List Char} (h : .markup lexeme source ∈ addPlain c ps) :
    .markup lexeme source ∈ ps := by
  unfold addPlain at h
  split at h <;> simp_all

/-- What is inside a form of a text is shorter than the text. -/
theorem inner_lt_of_mem_pieces {cs : List Char} {lexeme : Lexeme}
    {source : List Char} (h : .markup lexeme source ∈ pieces cs) :
    lexeme.inner.length < cs.length := by
  fun_induction pieces cs with
  | case1 => simp at h
  | case2 c cs found rest hmatch _ ih =>
    have := Lexeme.shortens_match? hmatch
    rcases List.mem_cons.1 h with heq | hmem
    · simp only [Piece.markup.injEq] at heq
      obtain ⟨rfl, -⟩ := heq
      omega
    · have := ih hmem
      omega
  | case3 c cs hmatch ih =>
    have := ih (mem_of_mem_addPlain h)
    simp
    omega

end Crosslink.Markdown
