import Crosslink.Proofs.Forms

/-!
# How forms are spelled

`Lexeme.Spelled` gives the spelling of every form; only the white space in
front of a title may differ. What a form is read from is its spelling
(`Lexeme.match?_spelled`), and nothing is read twice or left out: the pieces
of a text, written one after the other, are the text (`flatMap_pieces`).
-/

namespace Crosslink.Markdown

open Unicode (isWhite)

namespace Lexeme

/-! ## Spellings -/

/-- How a destination with or without a title is written. -/
inductive SpelledPath (destination : List Char) :
    Option (List Char) → List Char → Prop
  | bare : SpelledPath destination none (inParentheses destination)
  | titled {gap title : List Char} (hgap : gap ≠ [])
      (hwhite : ∀ c ∈ gap, isWhite c = true) :
      SpelledPath destination (some title)
        (inParentheses (destination ++ gap ++ '"' :: (title ++ ['"'])))

/-- How a form is written. The text of a link ends at the first bracket. -/
inductive Spelled : Lexeme → List Char → Prop
  | imageById {alt id : List Char} :
      Spelled (imageById alt id) ('!' :: (inBrackets alt ++ inBrackets id))
  | imageByPath {alt destination spelling : List Char}
      {title : Option (List Char)} (h : SpelledPath destination title spelling) :
      Spelled (imageByPath alt destination title)
        ('!' :: (inBrackets alt ++ spelling))
  | citation {label : List Char} :
      Spelled (citation label) (inBrackets ('@' :: label))
  | footnote {label : List Char} :
      Spelled (footnote label) (inBrackets ('^' :: label))
  | linkById {text id : List Char} (hclosed : ']' ∉ text) :
      Spelled (linkById text id) (inBrackets text ++ inBrackets id)
  | linkByPath {text destination spelling : List Char}
      {title : Option (List Char)} (hclosed : ']' ∉ text)
      (h : SpelledPath destination title spelling) :
      Spelled (linkByPath text destination title) (inBrackets text ++ spelling)
  | strong {text : List Char} :
      Spelled (strong text) ('*' :: '*' :: (text ++ ['*', '*']))
  | emphasis {text : List Char} :
      Spelled (emphasis text) ('*' :: (text ++ ['*']))
  | code {text : List Char} :
      Spelled (code text) ('\x60' :: (text ++ ['\x60']))

theorem Spelled.ne_nil {lexeme : Lexeme} {source : List Char}
    (h : lexeme.Spelled source) : source ≠ [] := by
  cases h <;> simp [inBrackets]

/-! ## Parts -/

theorem bracketed?_spec {cs text rest : List Char}
    (h : bracketed? cs = some (text, rest)) :
    cs = inBrackets text ++ rest ∧ ']' ∉ text := by
  unfold bracketed? at h
  split at h
  · refine ⟨?_, Text.not_mem_of_cutAt h⟩
    simp [inBrackets, Text.eq_of_cutAt h]
  · simp at h

theorem marked?_spec {mark : Char} {cs label rest : List Char}
    (h : marked? mark cs = some (label, rest)) :
    cs = inBrackets (mark :: label) ++ rest := by
  unfold marked? at h
  split at h
  · split at h
    · rename_i hmark
      split at h
      · rename_i hcut
        split at h
        · simp only [Option.some.injEq, Prod.mk.injEq] at h
          obtain ⟨rfl, rfl⟩ := h
          simp [inBrackets, hmark, Text.eq_of_cutAt hcut]
        · simp at h
      · simp at h
    · simp at h
  · simp at h

theorem title?_spec {cs title rest : List Char}
    (h : title? cs = some (title, rest)) :
    ∃ gap, gap ≠ [] ∧ (∀ c ∈ gap, isWhite c = true)
      ∧ cs = gap ++ '"' :: (title ++ '"' :: ')' :: rest) := by
  unfold title? at h
  split at h
  · simp at h
  · rename_i hgap
    split at h
    · rename_i more hdrop
      split at h
      · rename_i hcut
        simp only [Option.some.injEq, Prod.mk.injEq] at h
        obtain ⟨rfl, rfl⟩ := h
        have hwhite : ∀ c ∈ cs.takeWhile isWhite, isWhite c = true :=
          List.all_eq_true.mp List.all_takeWhile
        refine ⟨cs.takeWhile isWhite, by simpa using hgap, hwhite, ?_⟩
        rw [← Text.eq_of_cutAt hcut, ← hdrop, List.takeWhile_append_dropWhile]
      · simp at h
    · simp at h

theorem destination?_spec {cs destination rest : List Char}
    {title : Option (List Char)}
    (h : destination? cs = some (destination, title, rest)) :
    ∃ spelling, cs = spelling ++ rest
      ∧ SpelledPath destination title spelling := by
  unfold destination? at h
  split at h
  · rename_i more
    have hmore : more.takeWhile isDestinationChar
        ++ more.dropWhile isDestinationChar = more :=
      List.takeWhile_append_dropWhile
    dsimp only at h
    split at h
    · simp at h
    · split at h
      · rename_i hdrop
        simp only [Option.some.injEq, Prod.mk.injEq] at h
        obtain ⟨rfl, rfl, rfl⟩ := h
        refine ⟨_, ?_, .bare⟩
        rw [hdrop] at hmore
        simp [inParentheses, hmore]
      · obtain ⟨⟨t, r⟩, htitle, heq⟩ := Option.map_eq_some_iff.1 h
        simp only [Prod.mk.injEq] at heq
        obtain ⟨rfl, rfl, rfl⟩ := heq
        obtain ⟨gap, hgap, hwhite, hdrop⟩ := title?_spec htitle
        refine ⟨_, ?_, .titled hgap hwhite⟩
        rw [hdrop] at hmore
        simp [inParentheses, hmore]
  · simp at h

/-! ## Forms -/

/-- What the form is read from is its spelling. -/
def Reads (form : List Char → Option (Lexeme × List Char)) : Prop :=
  ∀ ⦃cs lexeme rest⦄, form cs = some (lexeme, rest) →
    ∃ source, cs = source ++ rest ∧ lexeme.Spelled source

theorem reads_orElse {f g : List Char → Option (Lexeme × List Char)}
    (hf : Reads f) (hg : Reads g) : Reads fun cs => f cs <|> g cs := by
  intro cs lexeme rest h
  cases hfc : f cs with
  | none =>
      simp only [hfc, Option.orElse_eq_orElse, Option.orElse_none] at h
      exact hg h
  | some found =>
      simp [hfc] at h
      exact hf (h ▸ hfc)

theorem reads_imageById? : Reads imageById? := by
  intro cs lexeme rest h
  unfold imageById? at h
  split at h
  · split at h
    · rename_i hb
      obtain ⟨⟨id, r⟩, hi, heq⟩ := Option.map_eq_some_iff.1 h
      simp only [Prod.mk.injEq] at heq
      obtain ⟨rfl, rfl⟩ := heq
      obtain ⟨rfl, -⟩ := bracketed?_spec hb
      obtain ⟨rfl, -⟩ := bracketed?_spec hi
      exact ⟨_, by simp, .imageById⟩
    · simp at h
  · simp at h

theorem reads_imageByPath? : Reads imageByPath? := by
  intro cs lexeme rest h
  unfold imageByPath? at h
  split at h
  · split at h
    · rename_i hb
      obtain ⟨⟨d, t, r⟩, hd, heq⟩ := Option.map_eq_some_iff.1 h
      simp only [Prod.mk.injEq] at heq
      obtain ⟨rfl, rfl⟩ := heq
      obtain ⟨rfl, -⟩ := bracketed?_spec hb
      obtain ⟨spelling, rfl, hspelling⟩ := destination?_spec hd
      exact ⟨_, by simp, .imageByPath hspelling⟩
    · simp at h
  · simp at h

theorem reads_citation? : Reads citation? := by
  intro cs lexeme rest h
  obtain ⟨⟨label, r⟩, hm, heq⟩ := Option.map_eq_some_iff.1 h
  simp only [Prod.mk.injEq] at heq
  obtain ⟨rfl, rfl⟩ := heq
  exact ⟨_, marked?_spec hm, .citation⟩

theorem reads_footnote? : Reads footnote? := by
  intro cs lexeme rest h
  obtain ⟨⟨label, r⟩, hm, heq⟩ := Option.map_eq_some_iff.1 h
  simp only [Prod.mk.injEq] at heq
  obtain ⟨rfl, rfl⟩ := heq
  exact ⟨_, marked?_spec hm, .footnote⟩

theorem reads_linkById? : Reads linkById? := by
  intro cs lexeme rest h
  unfold linkById? at h
  split at h
  · rename_i hb
    split at h
    · simp at h
    · obtain ⟨⟨id, r⟩, hi, heq⟩ := Option.map_eq_some_iff.1 h
      simp only [Prod.mk.injEq] at heq
      obtain ⟨rfl, rfl⟩ := heq
      obtain ⟨rfl, hclosed⟩ := bracketed?_spec hb
      obtain ⟨rfl, -⟩ := bracketed?_spec hi
      exact ⟨_, by simp, .linkById hclosed⟩
  · simp at h

theorem reads_linkByPath? : Reads linkByPath? := by
  intro cs lexeme rest h
  unfold linkByPath? at h
  split at h
  · rename_i hb
    split at h
    · simp at h
    · obtain ⟨⟨d, t, r⟩, hd, heq⟩ := Option.map_eq_some_iff.1 h
      simp only [Prod.mk.injEq] at heq
      obtain ⟨rfl, rfl⟩ := heq
      obtain ⟨rfl, hclosed⟩ := bracketed?_spec hb
      obtain ⟨spelling, rfl, hspelling⟩ := destination?_spec hd
      exact ⟨_, by simp, .linkByPath hclosed hspelling⟩
  · simp at h

theorem reads_strong? : Reads strong? := by
  intro cs lexeme rest h
  unfold strong? at h
  split at h
  · split at h
    · rename_i hcut
      split at h
      · simp at h
      · simp only [Option.some.injEq, Prod.mk.injEq] at h
        obtain ⟨rfl, rfl⟩ := h
        exact ⟨_, by simp [Text.eq_of_cutAt hcut], .strong⟩
    · simp at h
  · simp at h

theorem reads_emphasis? : Reads emphasis? := by
  intro cs lexeme rest h
  unfold emphasis? at h
  split at h
  · split at h
    · rename_i hcut
      split at h
      · simp at h
      · simp only [Option.some.injEq, Prod.mk.injEq] at h
        obtain ⟨rfl, rfl⟩ := h
        exact ⟨_, by simp [Text.eq_of_cutAt hcut], .emphasis⟩
    · simp at h
  · simp at h

theorem reads_code? : Reads code? := by
  intro cs lexeme rest h
  unfold code? at h
  split at h
  · split at h
    · rename_i hcut
      split at h
      · simp at h
      · simp only [Option.some.injEq, Prod.mk.injEq] at h
        obtain ⟨rfl, rfl⟩ := h
        exact ⟨_, by simp [Text.eq_of_cutAt hcut], .code⟩
    · simp at h
  · simp at h

theorem match?_spelled : Reads match? :=
  reads_orElse reads_imageById? <|
  reads_orElse reads_imageByPath? <|
  reads_orElse reads_citation? <|
  reads_orElse reads_footnote? <|
  reads_orElse reads_linkById? <|
  reads_orElse reads_linkByPath? <|
  reads_orElse reads_strong? <|
  reads_orElse reads_emphasis? reads_code?

end Lexeme

/-! ## Texts -/

namespace Piece

/-- What the piece is written as. -/
def source : Piece → List Char
  | plain text => text
  | markup _ source => source

/-- The piece is not empty, and a form is written as it is spelled. -/
def Spelled : Piece → Prop
  | plain text => text ≠ []
  | markup lexeme source => lexeme.Spelled source

end Piece

theorem flatMap_addPlain (c : Char) (ps : List Piece) :
    (addPlain c ps).flatMap Piece.source = c :: ps.flatMap Piece.source := by
  unfold addPlain
  split <;> simp [Piece.source]

theorem spelled_addPlain {c : Char} {ps : List Piece}
    (h : ∀ piece ∈ ps, piece.Spelled) : ∀ piece ∈ addPlain c ps, piece.Spelled := by
  have hplain : ∀ text, (Piece.plain (c :: text)).Spelled := fun _ => List.cons_ne_nil _ _
  unfold addPlain
  split
  · exact List.forall_mem_cons.mpr ⟨hplain _, (List.forall_mem_cons.mp h).2⟩
  · exact List.forall_mem_cons.mpr ⟨hplain _, h⟩

/-- The pieces of a text, written one after the other, are the text. -/
theorem flatMap_pieces (cs : List Char) : (pieces cs).flatMap Piece.source = cs := by
  fun_induction pieces cs with
  | case1 => rfl
  | case2 c cs lexeme rest hmatch _ ih =>
      obtain ⟨source, hsource, -⟩ := Lexeme.match?_spelled hmatch
      simp [hsource, Piece.source, ih]
  | case3 c cs hmatch ih => rw [flatMap_addPlain, ih]

theorem spelled_pieces (cs : List Char) : ∀ piece ∈ pieces cs, piece.Spelled := by
  fun_induction pieces cs with
  | case1 => exact List.forall_mem_nil _
  | case2 c cs lexeme rest hmatch _ ih =>
      obtain ⟨source, hsource, hspelled⟩ := Lexeme.match?_spelled hmatch
      refine List.forall_mem_cons.mpr ⟨?_, ih⟩
      simpa [hsource, Piece.Spelled] using hspelled
  | case3 c cs hmatch ih => exact spelled_addPlain ih

/-- A form stands in the text as it is spelled. -/
theorem spelled_of_mem_pieces {cs source : List Char} {lexeme : Lexeme}
    (h : .markup lexeme source ∈ pieces cs) : lexeme.Spelled source ∧ source ⊆ cs := by
  refine ⟨spelled_pieces cs (.markup lexeme source) h, fun c hc => ?_⟩
  rw [← flatMap_pieces cs]
  exact List.mem_flatMap.mpr ⟨.markup lexeme source, h, hc⟩

end Crosslink.Markdown
