import Crosslink.Markdown.Document
import Crosslink.Proofs.Nesting
import Crosslink.Proofs.Spelling

/-!
# Markup that is read nests no references

The text of a link ends at the first closing bracket, so it holds none, and
every form that becomes a reference needs one (`Lexeme.Spelled.closed`). Hence
a text without closing brackets has no references at any depth
(`pending_inline`), and no reference of any text has references in its own
(`nesting_inline`), nor has any reference of a source (`nesting_parse`).
-/

namespace Crosslink

namespace Markdown

namespace Lexeme

/-! ## What a form reads -/

/-- The form becomes a reference, unless its destination says otherwise. -/
def isPointer : Lexeme → Bool
  | strong _ | emphasis _ | code _ => false
  | _ => true

variable {lexeme : Lexeme} {source : List Char}

/-- What is inside a form belongs to its spelling. -/
theorem Spelled.inner_subset (h : lexeme.Spelled source) : lexeme.inner ⊆ source := by
  intro c hc
  cases h <;> simp_all [inner, inBrackets]

/-- A pointer is closed by a bracket after its inside. -/
theorem Spelled.closed (h : lexeme.Spelled source) (hpointer : lexeme.isPointer = true) :
    ']' ∈ source ∧ ']' ∉ lexeme.inner := by
  cases h <;> simp_all [isPointer, inner, inBrackets]

end Lexeme

/-! ## Spans that are read -/

theorem mem_inline {cs : List Char} {span : Span} (h : span ∈ inline cs) :
    (∃ text, span = .text text) ∨
      ∃ lexeme source, .markup lexeme source ∈ pieces cs
        ∧ span = lexeme.toSpan (inline lexeme.inner) (String.ofList source) := by
  rw [inline] at h
  obtain ⟨⟨piece, hmem⟩, -, rfl⟩ := List.mem_map.mp h
  cases piece with
  | plain text => exact .inl ⟨_, rfl⟩
  | markup lexeme source => exact .inr ⟨lexeme, source, hmem, rfl⟩

namespace Lexeme

/-- A form that is no pointer is no reference itself. -/
theorem pending_toSpan {content : List Span} {lexeme : Lexeme}
    (h : lexeme.isPointer = false) (source : String)
    (hcontent : Spans.collect Node.pending? .everywhere content = []) :
    (lexeme.toSpan content source).collect Node.pending? .everywhere = [] := by
  cases lexeme <;> simp_all [isPointer, toSpan]

theorem nesting_pathReference (kind : WrittenPath → ReferenceKind)
    (h : ∀ path, (kind path).nesting = []
      ∧ (kind path).collect Node.pending? .everywhere = [])
    (destination : List Char) (source : String) :
    (pathReference kind destination source).nesting = [] := by
  unfold pathReference
  split
  · simp [h]
  · simp

/-- A form nests no references if what it shows holds none. -/
theorem nesting_toSpan {content : List Span} {lexeme : Lexeme}
    (source : String) (hnone : Spans.nesting content = [])
    (hplain : lexeme.isPointer = true →
      Spans.collect Node.pending? .everywhere content = []) :
    (lexeme.toSpan content source).nesting = [] := by
  cases lexeme with
  | linkById text id => simp_all [isPointer, toSpan]
  | linkByPath text destination title =>
      simp only [toSpan]
      split
      · simpa using hnone
      · exact nesting_pathReference (.linkPath content · _)
          (fun _ => ⟨hnone, hplain rfl⟩) _ _
  | imageByPath alt destination title =>
      exact nesting_pathReference _ (fun _ => ⟨rfl, rfl⟩) _ _
  | strong text | emphasis text => simpa [toSpan] using hnone
  | imageById alt id | citation label | footnote label | code text =>
      simp [toSpan]

end Lexeme

/-- A text without closing brackets has no references. -/
theorem pending_inline (cs : List Char) (h : ']' ∉ cs) :
    Spans.collect Node.pending? .everywhere (inline cs) = [] := by
  refine (Spans.collect_eq_nil_iff _ _).mpr fun span hspan => ?_
  obtain ⟨text, rfl⟩ | ⟨lexeme, source, hmem, rfl⟩ := mem_inline hspan
  · simp
  · have hlt := inner_lt_of_mem_pieces hmem
    obtain ⟨hspelled, hsource⟩ := spelled_of_mem_pieces hmem
    cases hpointer : lexeme.isPointer with
    | true => exact absurd (hsource (hspelled.closed hpointer).1) h
    | false =>
        have hinner : ']' ∉ lexeme.inner := fun hmem =>
          h (hsource (hspelled.inner_subset hmem))
        exact Lexeme.pending_toSpan hpointer _ (pending_inline lexeme.inner hinner)
termination_by cs.length

/-- No text that is read has references in the text of a reference. -/
theorem nesting_inline (cs : List Char) : Spans.nesting (inline cs) = [] := by
  refine (Spans.collect_eq_nil_iff _ _).mpr fun span hspan => ?_
  obtain ⟨text, rfl⟩ | ⟨lexeme, source, hmem, rfl⟩ := mem_inline hspan
  · simp
  · have hlt := inner_lt_of_mem_pieces hmem
    obtain ⟨hspelled, -⟩ := spelled_of_mem_pieces hmem
    exact Lexeme.nesting_toSpan _ (nesting_inline lexeme.inner)
      fun hpointer => pending_inline _ (hspelled.closed hpointer).2
termination_by cs.length

/-! ## Blocks that are read -/

theorem nesting_plainParagraph (text : List Char) :
    (plainParagraph text).nesting = [] := by
  have hinline := nesting_inline text
  unfold plainParagraph
  split
  · simp
  · split
    · simp
    · simp
    · simpa using hinline

theorem nesting_paragraphBlock (text : List Char) :
    (paragraphBlock text).nesting = [] := by
  rw [paragraphBlock]
  split
  · rename_i kind label body hlabel
    have hlt := length_labelled?_lt hlabel
    have hbody := nesting_paragraphBlock body
    cases kind <;> simpa [LabelKind.toBlock] using hbody
  · exact nesting_plainParagraph text
termination_by text.length

theorem nesting_definitionBlock (written : WrittenDefinition)
    (text : List Char) : (definitionBlock written text).nesting = [] := by
  unfold definitionBlock
  split
  · exact nesting_paragraphBlock _
  · dsimp only
    split
    · split <;> simp
    · simp

mutual

theorem nesting_toBlock? (depth : Nat) : ∀ block : SourceBlock,
    Blocks.nesting (block.toBlock? depth).toList = []
  | .heading level text => by simp [SourceBlock.toBlock?, nesting_inline]
  | .underlined symbol text => by simp [SourceBlock.toBlock?, nesting_inline]
  | .quote content => by
      simpa [SourceBlock.toBlock?] using nesting_toBlocks (depth + 1) content
  | .definition written text => by
      simpa [SourceBlock.toBlock?] using nesting_definitionBlock written text
  | .paragraph text => by
      unfold SourceBlock.toBlock?
      dsimp only
      split
      · rfl
      · simpa using nesting_paragraphBlock _
  | .fencedCode _ _ | .indentedCode _ | .rule | .verbatim _ _ => by
      simp [SourceBlock.toBlock?]

theorem nesting_toBlocks (depth : Nat) : ∀ blocks : List SourceBlock,
    Blocks.nesting (SourceBlocks.toBlocks depth blocks) = []
  | [] => rfl
  | block :: blocks => by
      simp [SourceBlocks.toBlocks, nesting_toBlock? depth block,
        nesting_toBlocks depth blocks]

end

theorem nesting_parse (source : String) : Blocks.nesting (parse source) = [] :=
  nesting_toBlocks 0 _

end Markdown

end Crosslink
