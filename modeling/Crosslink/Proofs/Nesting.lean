import Crosslink.Proofs.Outline
import Crosslink.Proofs.Pending

/-!
# References in the text of references

`Blocks.nesting` lists the references whose text holds further references.
Markup that is read never has one, but trees may be given that do. Where
there is none a pass treats every reference on its own: the text of a
reference stays what it is, no such reference arises
(`Blocks.Yields.nesting_eq_nil`), and once the tree is known no reference is
left in running text (`Spans.Yields.pending_of_nesting`).
-/

namespace Crosslink

/-! ## Fallbacks hide nodes -/

mutual

theorem Span.nodes_sublist : ∀ span : Span,
    (span.nodes .outsideInvalid).Sublist (span.nodes .everywhere)
  | .emphasized content => (Spans.nodes_sublist content).append_right _
  | .strong content => (Spans.nodes_sublist content).append_right _
  | .link content _ _ => (Spans.nodes_sublist content).append_right _
  | .reference kind _ => (ReferenceKind.nodes_sublist kind).append_right _
  | .invalid _ _ => (List.nil_sublist _).append_right _
  | .text _ | .literal _ | .verbatim _ _ | .image _ _ _ | .citationLink _ _
  | .footnoteLink _ _ => List.Sublist.refl _

theorem ReferenceKind.nodes_sublist : ∀ kind : ReferenceKind,
    (kind.nodes .outsideInvalid).Sublist (kind.nodes .everywhere)
  | .linkId content _ => Spans.nodes_sublist content
  | .linkPath content _ _ => Spans.nodes_sublist content
  | .citation _ | .footnote _ | .imageId _ _ | .imagePath _ _ _ =>
      List.Sublist.refl _

theorem Spans.nodes_sublist : ∀ spans : List Span,
    (Spans.nodes .outsideInvalid spans).Sublist (Spans.nodes .everywhere spans)
  | [] => List.Sublist.refl _
  | span :: spans =>
      (Span.nodes_sublist span).append (Spans.nodes_sublist spans)

end

section

variable {α : Type} {f : Node → Option α}

theorem ReferenceKind.collect_outsideInvalid {kind : ReferenceKind}
    (h : kind.collect f .everywhere = []) :
    kind.collect f .outsideInvalid = [] := by
  have hsub : (kind.collect f .outsideInvalid).Sublist
      (kind.collect f .everywhere) := kind.nodes_sublist.filterMap f
  rw [h] at hsub
  exact List.sublist_nil.mp hsub

/-- What is found nowhere is not found outside of fallbacks either. -/
theorem Spans.collect_outsideInvalid {spans : List Span}
    (h : Spans.collect f .everywhere spans = []) :
    Spans.collect f .outsideInvalid spans = [] := by
  have hsub : (Spans.collect f .outsideInvalid spans).Sublist
      (Spans.collect f .everywhere spans) := (Spans.nodes_sublist spans).filterMap f
  rw [h] at hsub
  exact List.sublist_nil.mp hsub

end

/-! ## Nested references -/

/-- What the reference points at, if there are references in its text. -/
@[simp] def Node.nesting? : Node → Option ReferenceKind
  | .span (.reference kind _) =>
    if kind.collect Node.pending? .everywhere = [] then none else some kind
  | .block (.reference kind _) =>
    if kind.collect Node.pending? .everywhere = [] then none else some kind
  | _ => none

abbrev Span.nesting (span : Span) : List ReferenceKind :=
  span.collect Node.nesting? .everywhere

abbrev ReferenceKind.nesting (kind : ReferenceKind) : List ReferenceKind :=
  kind.collect Node.nesting? .everywhere

abbrev Spans.nesting (spans : List Span) : List ReferenceKind :=
  Spans.collect Node.nesting? .everywhere spans

abbrev Block.nesting (block : Block) : List ReferenceKind :=
  block.collect Node.nesting? .everywhere

/-- The references with references in their text, wherever they stand. -/
abbrev Blocks.nesting (blocks : List Block) : List ReferenceKind :=
  Blocks.collect Node.nesting? .everywhere blocks

theorem Blocks.nesting_buildOutline (flag : Bool) (blocks : List Block) :
    nesting (buildOutline flag blocks) = nesting blocks :=
  collect_buildOutline (Node.forall_isHeading (fun _ => rfl) (fun _ => rfl)
    (fun _ => rfl) fun _ _ => rfl) .everywhere flag blocks

/-! ## Passes where nothing is nested -/

/-- What a link or an image shows holds no references. -/
def Appearance.Plain (shown : Appearance) : Prop :=
  Spans.nesting shown.text = []
    ∧ Spans.collect Node.pending? .everywhere shown.text = []

namespace Appearance

variable {shown : Appearance}

theorem Plain.nesting_byId (h : shown.Plain) (id source : String) :
    (shown.byId id source).nesting = [] := by
  obtain ⟨hnesting, hpending⟩ := h
  cases shown <;> simp_all [byId, text]

theorem Plain.nesting_byPath (h : shown.Plain) (path : WrittenPath)
    (title : Option String) (source : String) :
    (shown.byPath path title source).nesting = [] := by
  obtain ⟨hnesting, hpending⟩ := h
  cases shown <;> simp_all [byPath, text]

theorem Plain.nesting_toSpan (h : shown.Plain) (target : Target)
    (title : Option String) : (shown.toSpan target title).nesting = [] := by
  obtain ⟨hnesting, -⟩ := h
  cases shown <;> simp_all [toSpan, text]

end Appearance

@[simp] theorem Scope.nesting_blockOfSpan (span : Span) :
    (blockOfSpan span).nesting = span.nesting := by
  cases span with
  | invalid fallback problem => cases fallback <;> simp [blockOfSpan]
  | _ => simp [blockOfSpan]

section

variable {s : Scope} {problems : List Problem}

namespace Scope

theorem SettlesPath.nesting_eq_nil {shown : Appearance} {path : WrittenPath}
    {title : Option String} {source : String} {out : Span}
    (h : s.SettlesPath shown path title source out problems)
    (hshown : shown.Plain) : out.nesting = [] := by
  cases h with
  | resolved _ => exact hshown.nesting_toSpan _ _
  | deferred _ => exact hshown.nesting_byPath _ _ _
  | failed _ => simp [hshown.nesting_byPath]

theorem SettlesId.nesting_eq_nil {shown : Appearance} {id source : String}
    {outcome : IdOutcome} {out : Span}
    (h : s.SettlesId shown id source outcome out problems)
    (hshown : shown.Plain) : out.nesting = [] := by
  cases h with
  | external => exact hshown.nesting_toSpan _ _
  | target => exact hshown.nesting_toSpan _ _
  | path h => exact h.nesting_eq_nil hshown
  | deferred => exact hshown.nesting_byId _ _
  | missing => simp [hshown.nesting_byId]
  | failed => simp [hshown.nesting_byId]

theorem ChecksAnchor.nesting_eq {id : Option String} {block out : Block}
    (h : s.ChecksAnchor id block out problems) : out.nesting = block.nesting := by
  cases h <;> simp

theorem FinishesCitation.nesting_eq {label : String} {id : Option String}
    {content : List Block} {out : Block}
    (h : s.FinishesCitation label id content out problems) :
    out.nesting = Blocks.nesting content := by
  cases h <;> simp

theorem FinishesFootnote.nesting_eq {place : Nat} {label : FootnoteLabel}
    {content : List Block} {out : Block}
    (h : s.FinishesFootnote place label content out problems) :
    out.nesting = Blocks.nesting content := by
  cases h <;> simp

end Scope

/-- The text of a reference stays as it is. -/
theorem Spans.Yields.eq_of_plain {content content' : List Span}
    (h : Spans.Yields s content content' problems)
    (hplain : Spans.collect Node.pending? .everywhere content = []) :
    content' = content ∧ problems = [] :=
  h.eq_of_pending_eq_nil (Spans.collect_outsideInvalid hplain)

end

section

variable {s : Scope}

mutual

theorem Span.Yields.nesting_eq_nil {before after : Span}
    {problems : List Problem} :
    Span.Yields s before after problems → before.nesting = [] →
      after.nesting = []
  | .emphasized h, hnone => by simpa using h.nesting_eq_nil (by simpa using hnone)
  | .strong h, hnone => by simpa using h.nesting_eq_nil (by simpa using hnone)
  | .link h, hnone => by simpa using h.nesting_eq_nil (by simpa using hnone)
  | .reference h, hnone => by
      simp at hnone
      exact h.nesting_eq_nil hnone.1 hnone.2
  | .text, hnone | .literal, hnone | .verbatim, hnone | .image, hnone
  | .citationLink, hnone | .footnoteLink, hnone | .invalid, hnone => hnone

theorem ReferenceKind.Yields.nesting_eq_nil {kind : ReferenceKind}
    {source : String} {out : Span} {problems : List Problem} :
    ReferenceKind.Yields s kind source out problems → kind.nesting = [] →
      kind.collect Node.pending? .everywhere = [] → out.nesting = []
  | .citation h, _, _ => by
      unfold Scope.citation at h
      split at h
      · cases h
      · split at h <;> cases h
        simp
  | .citationFailed _, _, _ => by simp
  | .footnote _, _, _ => by simp
  | .footnoteFailed _, _, _ => by simp
  | .imageId _ h, _, _ => h.nesting_eq_nil ⟨rfl, rfl⟩
  | .imagePath h, _, _ => h.nesting_eq_nil ⟨rfl, rfl⟩
  | .linkId hcontent _ h, hnone, hplain => by
      obtain ⟨rfl, -⟩ := hcontent.eq_of_plain hplain
      exact h.nesting_eq_nil ⟨hnone, hplain⟩
  | .linkPath h, hnone, hplain => h.nesting_eq_nil ⟨hnone, hplain⟩

theorem Spans.Yields.nesting_eq_nil {before after : List Span}
    {problems : List Problem} :
    Spans.Yields s before after problems → Spans.nesting before = [] →
      Spans.nesting after = []
  | .nil, _ => rfl
  | .cons h hrest, hnone => by
      simp only [Spans.collect_cons, List.append_eq_nil_iff] at hnone ⊢
      exact ⟨h.nesting_eq_nil hnone.1, hrest.nesting_eq_nil hnone.2⟩

end

mutual

theorem Block.Yields.nesting_eq_nil {before : Block} {after : Option Block}
    {problems : List Problem} :
    Block.Yields s before after problems → before.nesting = [] →
      Blocks.nesting after.toList = []
  | .paragraph h, hnone => by simpa using h.nesting_eq_nil (by simpa using hnone)
  | .codeBlock, _ | .rule, _ | .verbatim, _ => by simp
  | .decoratedHeader, hnone => by simpa using hnone
  | .header htext h, hnone => by
      simpa [h.nesting_eq] using htext.nesting_eq_nil (by simpa using hnone)
  | .title htext h, hnone => by
      simpa [h.nesting_eq] using htext.nesting_eq_nil (by simpa using hnone)
  | .sectionOf htext hcontent h, hnone => by
      simp at hnone
      simp [h.nesting_eq, htext.nesting_eq_nil hnone.1,
        hcontent.nesting_eq_nil hnone.2]
  | .quoted h, hnone => by simpa using h.nesting_eq_nil (by simpa using hnone)
  | .anchor h, _ => by simp [h.nesting_eq]
  | .linkDefinition h, _ => by cases h <;> simp
  | .linkAlias h, _ => by cases h <;> simp
  | .citation hcontent h, hnone => by
      simpa [h.nesting_eq] using hcontent.nesting_eq_nil (by simpa using hnone)
  | .footnoteDefinition hcontent h, hnone => by
      simpa [h.nesting_eq] using hcontent.nesting_eq_nil (by simpa using hnone)
  | .footnote h, hnone => by simpa using h.nesting_eq_nil (by simpa using hnone)
  | .reference h, hnone => by
      simp at hnone
      simpa using h.nesting_eq_nil hnone.1 hnone.2
  | .invalid h, hnone => by simpa using h.nesting_eq_nil (by simpa using hnone)

theorem Block.YieldsInside.nesting_eq_nil {before after : Block}
    {problems : List Problem} :
    Block.YieldsInside s before after problems → before.nesting = [] →
      after.nesting = []
  | .citation h, hnone => by simpa using h.nesting_eq_nil (by simpa using hnone)
  | .footnoteDefinition h, hnone => by
      simpa using h.nesting_eq_nil (by simpa using hnone)
  | .header h, hnone => by simpa using h.nesting_eq_nil (by simpa using hnone)
  | .sectionOf htext h, hnone => by
      simp at hnone
      simp [htext.nesting_eq_nil hnone.1, h.nesting_eq_nil hnone.2]
  | .title h, hnone => by simpa using h.nesting_eq_nil (by simpa using hnone)
  | .sealed _, hnone => hnone

/-- A pass nests no references. -/
theorem Blocks.Yields.nesting_eq_nil {before after : List Block}
    {problems : List Problem} :
    Blocks.Yields s before after problems → Blocks.nesting before = [] →
      Blocks.nesting after = []
  | .nil, _ => rfl
  | .cons h hrest, hnone => by
      simp only [Blocks.collect_cons, List.append_eq_nil_iff] at hnone
      simp only [Blocks.collect_append, List.append_eq_nil_iff]
      exact ⟨h.nesting_eq_nil hnone.1, hrest.nesting_eq_nil hnone.2⟩

end

/-! ## Running text with the tree known -/

mutual

theorem Span.blindSpots_eq_nil : ∀ span : Span, span.nesting = [] →
    span.blindSpots = []
  | .emphasized content, h => by
      simpa using Spans.blindSpots_eq_nil content (by simpa using h)
  | .strong content, h => by
      simpa using Spans.blindSpots_eq_nil content (by simpa using h)
  | .link content _ _, h => by
      simpa using Spans.blindSpots_eq_nil content (by simpa using h)
  | .reference kind _, h => by
      simp at h
      simp [ReferenceKind.blindSpots_eq_nil kind h.1,
        ReferenceKind.collect_outsideInvalid h.2]
  | .text _, _ | .literal _, _ | .verbatim _ _, _ | .image _ _ _, _
  | .citationLink _ _, _ | .footnoteLink _ _, _ | .invalid _ _, _ => by simp

theorem ReferenceKind.blindSpots_eq_nil : ∀ kind : ReferenceKind,
    kind.nesting = [] → kind.blindSpots = []
  | .linkId content _, h => Spans.blindSpots_eq_nil content h
  | .linkPath content _ _, h => Spans.blindSpots_eq_nil content h
  | .citation _, _ | .footnote _, _ | .imageId _ _, _ | .imagePath _ _ _, _ => rfl

/-- A pass sees all of a text where nothing is nested. -/
theorem Spans.blindSpots_eq_nil : ∀ spans : List Span,
    Spans.nesting spans = [] → Spans.blindSpots spans = []
  | [], _ => rfl
  | span :: spans, h => by
      simp only [Spans.collect_cons, List.append_eq_nil_iff] at h ⊢
      exact ⟨Span.blindSpots_eq_nil span h.1, Spans.blindSpots_eq_nil spans h.2⟩

end

/-- With the tree known no reference is left in running text. -/
theorem Spans.Yields.pending_of_nesting {tree : TreeIndex}
    {before after : List Span} {problems : List Problem}
    (htree : s.tree = some tree) (h : Spans.Yields s before after problems)
    (hnone : Spans.nesting before = []) : Spans.pending after = [] := by
  have hclears := h.clears (Spans.blindSpots_eq_nil before hnone)
  exact hclears.2 (by rw [htree]; exact Option.some_ne_none tree)

end

end Crosslink
