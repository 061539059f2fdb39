import Crosslink.Proofs.Nodes
import Crosslink.Proofs.Spelling

/-!
# No text is lost in reading spans

Plain text, code and references keep the text they were read from, and what is
strong or emphasized keeps its content, so all of them can be written as they
stood (`Span.written?`). A finished link cannot: its address is not kept as it
was written. The spans of a text without finished links, written one after the
other, are the text (`written?_inline`). The induction is on the length of the
text, since what is inside a form is shorter than the text.
-/

namespace Crosslink

/-! ## Writing spans -/

mutual

/-- What the span was read from, if that shows in it. -/
def Span.written? : Span → Option (List Char)
  | .text text => some text.toList
  | .reference _ source => some source.toList
  | .strong content =>
    (Spans.written? content).map fun cs => ['*', '*'] ++ cs ++ ['*', '*']
  | .emphasized content =>
    (Spans.written? content).map fun cs => ['*'] ++ cs ++ ['*']
  | .literal text => some (['\x60'] ++ text.toList ++ ['\x60'])
  | .verbatim _ _ => none
  | .link _ _ _ => none
  | .image _ _ _ => none
  | .citationLink _ _ => none
  | .footnoteLink _ _ => none
  | .invalid _ _ => none

def Spans.written? : List Span → Option (List Char)
  | [] => some []
  | span :: spans => do
    let first ← span.written?
    let rest ← Spans.written? spans
    return first ++ rest

end

/-! ## Links and plain text among the nodes -/

/-- The span, if it is a finished link. -/
@[simp] def Node.link? : Node → Option Span
  | .span (.link content target title) => some (.link content target title)
  | _ => none

abbrev Span.links (span : Span) : List Span :=
  span.collect Node.link? .everywhere

/-- The finished links among some spans, at any depth. -/
abbrev Spans.links (spans : List Span) : List Span :=
  Spans.collect Node.link? .everywhere spans

/-- What a plain text says. -/
@[simp] def Node.text? : Node → Option String
  | .span (.text text) => some text
  | _ => none

abbrev Span.texts (span : Span) : List String :=
  span.collect Node.text? .everywhere

/-- The plain texts among some spans, at any depth. -/
abbrev Spans.texts (spans : List Span) : List String :=
  Spans.collect Node.text? .everywhere spans

namespace Markdown

/-! ## One form -/

theorem written?_pathReference (kind : WrittenPath → ReferenceKind)
    (destination source : List Char) :
    (Lexeme.pathReference kind destination (String.ofList source)).written?
      = some source := by
  unfold Lexeme.pathReference
  split <;> simp [Span.written?]

/-- A form is written as it stood, if its inside is and it is no finished
link. -/
theorem Lexeme.Spelled.written? {lexeme : Lexeme} {source : List Char}
    (h : lexeme.Spelled source) {content : List Span}
    (hinner : Spans.links content = [] → Spans.written? content = some lexeme.inner)
    (hnone : (lexeme.toSpan content (String.ofList source)).links = []) :
    (lexeme.toSpan content (String.ofList source)).written? = some source := by
  cases h with
  | strong | emphasis =>
      have hcontent : Spans.links content = [] := by simpa [toSpan] using hnone
      simp [toSpan, Span.written?, hinner hcontent, inner]
  | linkByPath hclosed hpath =>
      simp only [toSpan] at hnone ⊢
      split
      · rename_i hexternal
        simp [hexternal] at hnone
      · exact written?_pathReference _ _ _
  | imageByPath hpath => exact written?_pathReference _ _ _
  | imageById | citation | footnote | linkById hclosed | code =>
      simp [toSpan, Span.written?]

/-- A form shows no empty text, if its inside does not. -/
theorem Lexeme.Spelled.texts {lexeme : Lexeme} {source : List Char}
    (h : lexeme.Spelled source) {content : List Span}
    (hinner : "" ∉ Spans.texts content) :
    "" ∉ (lexeme.toSpan content (String.ofList source)).texts := by
  have hsource : String.ofList source ≠ "" := by simpa using h.ne_nil
  have hpath : ∀ (kind : WrittenPath → ReferenceKind) (destination : List Char),
      (∀ path, "" ∉ (kind path).collect Node.text? .everywhere) →
        "" ∉ (pathReference kind destination (String.ofList source)).texts := by
    intro kind destination hkind
    unfold pathReference
    split
    · simpa using hkind _
    · simpa using hsource.symm
  cases h with
  | strong | emphasis => simpa [toSpan] using hinner
  | linkByPath hclosed _ =>
      simp only [toSpan]
      split
      · simpa using hinner
      · exact hpath _ _ fun _ => hinner
  | imageByPath _ => exact hpath _ _ (by simp)
  | linkById hclosed => simpa [toSpan] using hinner
  | imageById | citation | footnote | code => simp [toSpan]

/-! ## Whole texts -/

theorem written?_map_toSpan {ps : List Piece}
    (h : ∀ piece ∈ ps, piece.toSpan.written? = some piece.source) :
    Spans.written? (ps.map Piece.toSpan) = some (ps.flatMap Piece.source) := by
  induction ps with
  | nil => rfl
  | cons piece ps ih =>
      obtain ⟨hpiece, hps⟩ := List.forall_mem_cons.mp h
      rw [List.map_cons, Spans.written?, hpiece, ih hps]
      rfl

/-- The spans of a text, written one after the other, are the text. -/
theorem written?_inline (cs : List Char) (h : Spans.links (inline cs) = []) :
    Spans.written? (inline cs) = some cs := by
  have hpieces : ∀ piece ∈ pieces cs, piece.toSpan.written? = some piece.source := by
    intro piece hmem
    have hspelled := spelled_pieces cs piece hmem
    have hnone : piece.toSpan.links = [] := by
      rw [inline_eq_map] at h
      exact (Spans.collect_eq_nil_iff _ _).mp h _ (List.mem_map_of_mem hmem)
    cases piece with
    | plain text => simp [Piece.toSpan, Span.written?, Piece.source]
    | markup lexeme source =>
        have hlt := inner_lt_of_mem_pieces hmem
        exact hspelled.written? (written?_inline lexeme.inner) hnone
  rw [inline_eq_map, written?_map_toSpan hpieces, flatMap_pieces]
termination_by cs.length

theorem texts_inline (cs : List Char) : "" ∉ Spans.texts (inline cs) := by
  intro hempty
  rw [inline_eq_map] at hempty
  obtain ⟨span, hspan, htext⟩ := (Spans.mem_collect_iff _ _).mp hempty
  obtain ⟨piece, hmem, rfl⟩ := List.mem_map.mp hspan
  have hspelled := spelled_pieces cs piece hmem
  cases piece with
  | plain text =>
      have hne : text ≠ [] := hspelled
      have hsome : String.ofList text ≠ "" := by simpa using hne
      have heq : "" = String.ofList text := by simpa [Piece.toSpan] using htext
      exact hsome heq.symm
  | markup lexeme source =>
      have hlt := inner_lt_of_mem_pieces hmem
      exact hspelled.texts (texts_inline lexeme.inner) htext
termination_by cs.length

/-- No text is lost in reading spans: where no finished link is among them, at
any depth, they are written as the text they were read from. No plain text is
empty, and what is inside a form, and is read in turn, is shorter than the
text. -/
theorem inline_loses_nothing (cs : List Char) :
    (Spans.links (inline cs) = [] → Spans.written? (inline cs) = some cs)
      ∧ "" ∉ Spans.texts (inline cs)
      ∧ inline cs = (pieces cs).map Piece.toSpan
      ∧ ∀ lexeme source, .markup lexeme source ∈ pieces cs →
          lexeme.inner.length < cs.length :=
  ⟨written?_inline cs, texts_inline cs, inline_eq_map cs,
    fun _ _ => inner_lt_of_mem_pieces⟩

/-- A line with a reference inside strong text, code and a footnote. -/
def tideLine : List Char := "See **the [tides](low.md)**, `*`[^1]".toList

theorem inline_loses_nothing_tideLine :
    inline tideLine
        = [.text "See ",
            .strong
              [.text "the ",
               .reference
                 (.linkPath [.text "tides"] (.relative ⟨0, ["low.md"], none⟩) none)
                 "[tides](low.md)"],
            .text ", ", .literal "*", .reference (.footnote (.numeric 1)) "[^1]"]
      ∧ Spans.links (inline tideLine) = []
      ∧ Spans.written? (inline tideLine) = some tideLine := by
  have htides : pieces "tides".toList = [.plain "tides".toList] := by
    decide +kernel
  have hstrong : pieces "the [tides](low.md)".toList
      = [.plain "the ".toList,
          .markup (.linkByPath "tides".toList "low.md".toList none)
            "[tides](low.md)".toList] := by
    decide +kernel
  have hline : pieces tideLine
      = [.plain "See ".toList,
          .markup (.strong "the [tides](low.md)".toList)
            "**the [tides](low.md)**".toList,
          .plain ", ".toList, .markup (.code "*".toList) "`*`".toList,
          .markup (.footnote "1".toList) "[^1]".toList] := by
    decide +kernel
  have hspans : inline tideLine
      = [.text "See ", .strong (inline "the [tides](low.md)".toList), .text ", ",
          .literal "*", .reference (.footnote (.numeric 1)) "[^1]"] := by
    rw [inline_eq_map, hline]
    rfl
  rw [inline_eq_map "the [tides](low.md)".toList, hstrong, List.map_cons,
    List.map_singleton] at hspans
  simp only [Piece.toSpan, Lexeme.inner, inline_eq_map "tides".toList, htides] at hspans
  have hnone : Spans.links (inline tideLine) = [] := by
    rw [hspans]
    rfl
  exact ⟨hspans, hnone, (inline_loses_nothing tideLine).1 hnone⟩

end Markdown

end Crosslink
