import Mathlib.Data.List.Forall2
import Crosslink.Proofs.Becomes
import Crosslink.Proofs.Phases

/-!
# Resolution keeps the content

The leaves of a document are what a reader gets to see of it apart from
headings, links and labels: its text, code, rules, opaque pieces and the
alternative texts of its images, in reading order (`Blocks.leaves`). No
document gains, loses or reorders any of them in the course of resolution
(`DocumentRoot.resolve_keeps_content`).

What happens to a reference is said by `Span.Retold`: it still stands there,
has become a link or an image, a citation or footnote link, or is the
fallback of an invalid span, and carries its text and its source along,
also where it stands in the text of another reference. A pass retells every
reference (`ReferenceKind.Yields.retold`), and what is retold twice is
retold (`Span.Retold.trans`).
-/

namespace Crosslink

/-! ## Leaves -/

/-- A piece of content without parts. -/
inductive Leaf where
  | text (text : String)
  | code (text : String)
  | verbatimSpan (kind content : String)
  | alt (text : String)
  | codeBlock (code : String) (language : Option String)
  | rule
  | verbatimBlock (kind content : String)
deriving Repr, DecidableEq

/-- The alternative text of a reference to an image. -/
@[simp] def ReferenceKind.alt? : ReferenceKind → Option String
  | .imageId alt _ => some alt
  | .imagePath alt _ _ => some alt
  | .linkId _ _ => none
  | .linkPath _ _ _ => none
  | .citation _ => none
  | .footnote _ => none

@[simp] def Node.leaf? : Node → Option Leaf
  | .span (.text text) => some (.text text)
  | .span (.literal text) => some (.code text)
  | .span (.verbatim kind content) => some (.verbatimSpan kind content)
  | .span (.image alt _ _) => some (.alt alt)
  | .span (.reference kind _) => kind.alt?.map .alt
  | .block (.reference kind _) => kind.alt?.map .alt
  | .block (.codeBlock code language) => some (.codeBlock code language)
  | .block .rule => some .rule
  | .block (.verbatim kind content) => some (.verbatimBlock kind content)
  | _ => none

abbrev Span.leaves (span : Span) : List Leaf :=
  span.collect Node.leaf? .everywhere

abbrev Spans.leaves (spans : List Span) : List Leaf :=
  Spans.collect Node.leaf? .everywhere spans

abbrev Block.leaves (block : Block) : List Leaf :=
  block.collect Node.leaf? .everywhere

/-- The leaves of a sequence of blocks in reading order; an invalid node
counts with its fallback. -/
abbrev Blocks.leaves (blocks : List Block) : List Leaf :=
  Blocks.collect Node.leaf? .everywhere blocks

theorem Blocks.leaves_buildOutline (flag : Bool) (blocks : List Block) :
    leaves (buildOutline flag blocks) = leaves blocks :=
  collect_buildOutline (Node.forall_isHeading (fun _ => rfl) (fun _ => rfl)
    (fun _ => rfl) fun _ _ => rfl) .everywhere flag blocks

@[simp] def Node.reference? : Node → Option (ReferenceKind × String)
  | .span (.reference kind source) => some (kind, source)
  | .block (.reference kind source) => some (kind, source)
  | _ => none

/-- The references of a sequence of blocks with their sources. -/
abbrev Blocks.references (blocks : List Block) : List (ReferenceKind × String) :=
  Blocks.collect Node.reference? .everywhere blocks

theorem Blocks.references_buildOutline (flag : Bool) (blocks : List Block) :
    references (buildOutline flag blocks) = references blocks :=
  collect_buildOutline (Node.forall_isHeading (fun _ => rfl) (fun _ => rfl)
    (fun _ => rfl) fun _ _ => rfl) .everywhere flag blocks

/-! ## What becomes of references -/

/-- What a reference is to be shown as, if it is a link or an image. -/
@[simp] def ReferenceKind.shown? : ReferenceKind → Option Appearance
  | .imageId alt _ => some (.image alt)
  | .imagePath alt _ _ => some (.image alt)
  | .linkId content _ => some (.link content)
  | .linkPath content _ _ => some (.link content)
  | .citation _ => none
  | .footnote _ => none

mutual

/-- The span with its references retold, each with its source, and all
other text as it was. -/
inductive Span.Retold : Span → Span → Prop
  | same {span : Span} (h : span.isLeaf = true) : Span.Retold span span
  | emphasized {content content' : List Span} (h : Spans.Retold content content') :
      Span.Retold (.emphasized content) (.emphasized content')
  | strong {content content' : List Span} (h : Spans.Retold content content') :
      Span.Retold (.strong content) (.strong content')
  | link {content content' : List Span} {target : Target}
      {title : Option String} (h : Spans.Retold content content') :
      Span.Retold (.link content target title) (.link content' target title)
  | kept {kind kind' : ReferenceKind} {source : String}
      (h : ReferenceKind.Retold kind kind') :
      Span.Retold (.reference kind source) (.reference kind' source)
  | invalid {kind kind' : ReferenceKind} {source : String} {problem : Problem}
      (h : ReferenceKind.Retold kind kind') :
      Span.Retold (.reference kind source)
        (.invalid (.reference kind' source) problem)
  | finished {kind : ReferenceKind} {shown shown' : Appearance}
      {source : String} {target : Target} {title : Option String}
      (hkind : kind.shown? = some shown) (h : Appearance.Retold shown shown') :
      Span.Retold (.reference kind source) (shown'.toSpan target title)
  | cited {label reference source : String} :
      Span.Retold (.reference (.citation label) source)
        (.citationLink label reference)
  | noted {label : FootnoteLabel} {id shown source : String} :
      Span.Retold (.reference (.footnote label) source) (.footnoteLink id shown)

/-- A link or an image of the same content; what it leads to may have been
found out. -/
inductive ReferenceKind.Retold : ReferenceKind → ReferenceKind → Prop
  | citation {label : String} :
      ReferenceKind.Retold (.citation label) (.citation label)
  | footnote {label : FootnoteLabel} :
      ReferenceKind.Retold (.footnote label) (.footnote label)
  | shown {kind kind' : ReferenceKind} {shown shown' : Appearance}
      (hkind : kind.shown? = some shown) (hkind' : kind'.shown? = some shown')
      (h : Appearance.Retold shown shown') : ReferenceKind.Retold kind kind'

inductive Appearance.Retold : Appearance → Appearance → Prop
  | link {content content' : List Span} (h : Spans.Retold content content') :
      Appearance.Retold (.link content) (.link content')
  | image {alt : String} : Appearance.Retold (.image alt) (.image alt)

inductive Spans.Retold : List Span → List Span → Prop
  | nil : Spans.Retold [] []
  | cons {span out : Span} {spans outs : List Span} (h : Span.Retold span out)
      (hrest : Spans.Retold spans outs) :
      Spans.Retold (span :: spans) (out :: outs)

end

/-! ## Retelling keeps the leaves -/

def Appearance.leaves : Appearance → List Leaf
  | .link content => Spans.leaves content
  | .image alt => [.alt alt]

theorem Appearance.leaves_toSpan (shown : Appearance) (target : Target)
    (title : Option String) : (shown.toSpan target title).leaves = shown.leaves := by
  cases shown <;> simp [toSpan, leaves]

theorem Span.leaves_reference {kind : ReferenceKind} {shown : Appearance}
    (h : kind.shown? = some shown) (source : String) :
    (Span.reference kind source).leaves = shown.leaves := by
  cases kind <;> cases h <;> simp [Appearance.leaves]

theorem Span.leaves_invalid (fallback : Span) (problem : Problem) :
    (Span.invalid fallback problem).leaves = fallback.leaves := by
  simp

mutual

theorem Span.Retold.leaves_eq {before after : Span} :
    Span.Retold before after → after.leaves = before.leaves
  | .same _ => rfl
  | .emphasized h => by simp [h.leaves_eq]
  | .strong h => by simp [h.leaves_eq]
  | .link h => by simp [h.leaves_eq]
  | .kept h => h.leaves_eq _
  | .invalid h => (Span.leaves_invalid _ _).trans (h.leaves_eq _)
  | .finished hkind h => by
      rw [Appearance.leaves_toSpan, Span.leaves_reference hkind, h.leaves_eq]
  | .cited => rfl
  | .noted => rfl

theorem ReferenceKind.Retold.leaves_eq {kind kind' : ReferenceKind} :
    ReferenceKind.Retold kind kind' → ∀ source : String,
      (Span.reference kind' source).leaves = (Span.reference kind source).leaves
  | .citation, _ => rfl
  | .footnote, _ => rfl
  | .shown hkind hkind' h, _ => by
      rw [Span.leaves_reference hkind, Span.leaves_reference hkind', h.leaves_eq]

theorem Appearance.Retold.leaves_eq {shown shown' : Appearance} :
    Appearance.Retold shown shown' → shown'.leaves = shown.leaves
  | .link h => h.leaves_eq
  | .image => rfl

theorem Spans.Retold.leaves_eq {before after : List Span} :
    Spans.Retold before after → Spans.leaves after = Spans.leaves before
  | .nil => rfl
  | .cons h hrest => by simp [h.leaves_eq, hrest.leaves_eq]

end

/-! ## One pass retells -/

mutual

theorem Span.Retold.refl : ∀ span : Span, Span.Retold span span
  | .emphasized content => .emphasized (Spans.Retold.refl content)
  | .strong content => .strong (Spans.Retold.refl content)
  | .link content _ _ => .link (Spans.Retold.refl content)
  | .reference kind _ => .kept (ReferenceKind.Retold.refl kind)
  | .text _ | .literal _ | .verbatim _ _ | .image _ _ _ | .citationLink _ _
  | .footnoteLink _ _ | .invalid _ _ => .same rfl

theorem ReferenceKind.Retold.refl : ∀ kind : ReferenceKind,
    ReferenceKind.Retold kind kind
  | .citation _ => .citation
  | .footnote _ => .footnote
  | .imageId _ _ => .shown rfl rfl .image
  | .imagePath _ _ _ => .shown rfl rfl .image
  | .linkId content _ => .shown rfl rfl (.link (Spans.Retold.refl content))
  | .linkPath content _ _ => .shown rfl rfl (.link (Spans.Retold.refl content))

theorem Spans.Retold.refl : ∀ spans : List Span, Spans.Retold spans spans
  | [] => .nil
  | span :: spans => .cons (Span.Retold.refl span) (Spans.Retold.refl spans)

end

section

variable {s : Scope} {kind : ReferenceKind} {shown shown' : Appearance}
  {source : String} {out : Span} {problems : List Problem}

theorem Appearance.exists_byId (shown : Appearance) (id source : String) :
    ∃ kind : ReferenceKind, shown.byId id source = .reference kind source
      ∧ kind.shown? = some shown := by
  cases shown <;> exact ⟨_, rfl, rfl⟩

theorem Appearance.exists_byPath (shown : Appearance) (path : WrittenPath)
    (title : Option String) (source : String) :
    ∃ kind : ReferenceKind, shown.byPath path title source = .reference kind source
      ∧ kind.shown? = some shown := by
  cases shown <;> exact ⟨_, rfl, rfl⟩

theorem Scope.SettlesPath.retold {path : WrittenPath} {title : Option String}
    (h : s.SettlesPath shown' path title source out problems)
    (hkind : kind.shown? = some shown) (hshown : shown.Retold shown') :
    Span.Retold (.reference kind source) out := by
  obtain ⟨kind', hbyPath, hkind'⟩ := shown'.exists_byPath path title source
  cases h with
  | resolved _ => exact .finished hkind hshown
  | deferred _ =>
      rw [hbyPath]
      exact .kept (.shown hkind hkind' hshown)
  | failed _ =>
      rw [hbyPath]
      exact .invalid (.shown hkind hkind' hshown)

theorem Scope.SettlesId.retold {id : String} {outcome : IdOutcome}
    (h : s.SettlesId shown' id source outcome out problems)
    (hkind : kind.shown? = some shown) (hshown : shown.Retold shown') :
    Span.Retold (.reference kind source) out := by
  have hbyId : ∀ other, ∃ kind', shown'.byId other source = .reference kind' source
      ∧ ReferenceKind.Retold kind kind' := by
    intro other
    obtain ⟨kind', heq, hkind'⟩ := shown'.exists_byId other source
    exact ⟨kind', heq, .shown hkind hkind' hshown⟩
  cases h with
  | external => exact .finished hkind hshown
  | target => exact .finished hkind hshown
  | path hpath => exact hpath.retold hkind hshown
  | @deferred last =>
      obtain ⟨kind', heq, hretold⟩ := hbyId last
      rw [heq]
      exact .kept hretold
  | missing =>
      obtain ⟨kind', heq, hretold⟩ := hbyId id
      rw [heq]
      exact .invalid hretold
  | failed =>
      obtain ⟨kind', heq, hretold⟩ := hbyId id
      rw [heq]
      exact .invalid hretold

theorem Scope.citation_eq_ok {label : String} (h : s.citation label = .ok out) :
    out = .citationLink label label := by
  unfold citation at h
  split at h
  · cases h
  · split at h <;> cases h
    rfl

mutual

theorem Span.Yields.retold {before after : Span} {problems : List Problem} :
    Span.Yields s before after problems → Span.Retold before after
  | .text | .literal | .verbatim | .image | .citationLink | .footnoteLink
  | .invalid => .same rfl
  | .emphasized h => .emphasized h.retold
  | .strong h => .strong h.retold
  | .link h => .link h.retold
  | .reference h => h.retold

theorem ReferenceKind.Yields.retold {kind : ReferenceKind} {source : String}
    {out : Span} {problems : List Problem} :
    ReferenceKind.Yields s kind source out problems →
      Span.Retold (.reference kind source) out
  | .citation h => by
      rw [Scope.citation_eq_ok h]
      exact .cited
  | .citationFailed _ => .invalid .citation
  | .footnote _ => .noted
  | .footnoteFailed _ => .invalid .footnote
  | .imageId _ h => h.retold rfl .image
  | .imagePath h => h.retold rfl .image
  | .linkId hcontent _ h => h.retold rfl (.link hcontent.retold)
  | .linkPath h => h.retold rfl (.link (Spans.Retold.refl _))

theorem Spans.Yields.retold {before after : List Span} {problems : List Problem} :
    Spans.Yields s before after problems → Spans.Retold before after
  | .nil => .nil
  | .cons h hrest => .cons h.retold hrest.retold

end

end

/-! ## Two passes retell -/

mutual

theorem Span.Retold.trans {before middle after : Span} :
    Span.Retold before middle → Span.Retold middle after →
      Span.Retold before after
  | .same hleaf, h' => by
      cases h' with
      | same _ => exact .same hleaf
      | _ => cases hleaf
  | .emphasized h, h' => by
      cases h' with
      | same _ => exact .emphasized h
      | emphasized h' => exact .emphasized (h.trans h')
  | .strong h, h' => by
      cases h' with
      | same _ => exact .strong h
      | strong h' => exact .strong (h.trans h')
  | .link h, h' => by
      cases h' with
      | same _ => exact .link h
      | link h' => exact .link (h.trans h')
  | .kept h, h' => by
      cases h' with
      | same hleaf => cases hleaf
      | kept h' => exact .kept (h.trans h')
      | invalid h' => exact .invalid (h.trans h')
      | finished hmiddle h' =>
          -- kept by the first pass, finished by the second: the text was
          -- retold in both
          obtain ⟨shown, hkind, hshown⟩ := h.trans_shown hmiddle h'
          exact .finished hkind hshown
      | cited =>
          cases h with
          | citation => exact .cited
          | shown _ hkind' _ => cases hkind'
      | noted =>
          cases h with
          | footnote => exact .noted
          | shown _ hkind' _ => cases hkind'
  | .invalid h, h' => by
      cases h'
      exact .invalid h
  | .finished hkind (.link h), h' => by
      cases h' with
      | same hleaf => cases hleaf
      | link h' => exact .finished hkind (.link (h.trans h'))
  | .finished hkind .image, h' => by
      cases h'
      exact .finished hkind .image
  | .cited, h' => by
      cases h'
      exact .cited
  | .noted, h' => by
      cases h'
      exact .noted
termination_by structural h => h

theorem ReferenceKind.Retold.trans {kind kind' kind'' : ReferenceKind} :
    ReferenceKind.Retold kind kind' → ReferenceKind.Retold kind' kind'' →
      ReferenceKind.Retold kind kind''
  | .citation, h' => h'
  | .footnote, h' => h'
  | .shown hkind hkind' h, h' => by
      cases h' with
      | citation => cases hkind'
      | footnote => cases hkind'
      | shown hmiddle hlast h' =>
          obtain rfl := Option.some.inj (hkind'.symm.trans hmiddle)
          exact .shown hkind hlast (h.trans h')
termination_by structural h => h

theorem ReferenceKind.Retold.trans_shown {kind kind' : ReferenceKind}
    {shown' shown'' : Appearance} :
    ReferenceKind.Retold kind kind' → kind'.shown? = some shown' →
      Appearance.Retold shown' shown'' →
      ∃ shown, kind.shown? = some shown ∧ Appearance.Retold shown shown''
  | .citation, hmiddle, _ => nomatch hmiddle
  | .footnote, hmiddle, _ => nomatch hmiddle
  | .shown hkind hkind' h, hmiddle, h' => by
      obtain rfl := Option.some.inj (hkind'.symm.trans hmiddle)
      exact ⟨_, hkind, h.trans h'⟩
termination_by structural h => h

theorem Appearance.Retold.trans {shown shown' shown'' : Appearance} :
    Appearance.Retold shown shown' → Appearance.Retold shown' shown'' →
      Appearance.Retold shown shown''
  | .link h, .link h' => .link (h.trans h')
  | .image, .image => .image
termination_by structural h => h

theorem Spans.Retold.trans {before middle after : List Span} :
    Spans.Retold before middle → Spans.Retold middle after →
      Spans.Retold before after
  | .nil, .nil => .nil
  | .cons h hrest, .cons h' hrest' => .cons (h.trans h') (hrest.trans hrest')
termination_by structural h => h

end

/-- What the passes over a document may make of a reference, wherever it
stands. -/
abbrev ReferenceKind.RetoldAs (kind : ReferenceKind) (source : String)
    (out : Span) : Prop :=
  Span.Retold (.reference kind source) out

theorem ReferenceKind.RetoldAs.fallback_eq {kind : ReferenceKind} {source : String}
    {out fallback : Span} {problem : Problem} (h : kind.RetoldAs source out)
    (hout : out = .invalid fallback problem) :
    ∃ kind', ReferenceKind.Retold kind kind' ∧ fallback = .reference kind' source := by
  cases h with
  | same hleaf => cases hleaf
  | invalid h =>
      cases hout
      exact ⟨_, h, rfl⟩
  | finished _ h => cases h <;> cases hout
  | _ => cases hout

theorem Scope.allows_retoldAs (s s' : Scope) : s.Allows s' ReferenceKind.RetoldAs :=
  fun _ _ _ _ _ _ h h' => h.retold.trans h'.retold

/-! ## Whole documents -/

/-- A reference that stands as a block keeps its leaves. -/
theorem Block.leaves_blockOfSpan (span : Span) :
    (Scope.blockOfSpan span).leaves = span.leaves := by
  cases span with
  | invalid fallback problem => cases fallback <;> simp [Scope.blockOfSpan]
  | _ => simp [Scope.blockOfSpan]

mutual

theorem Span.Becomes.leaves_eq {before after : Span} :
    Span.Becomes ReferenceKind.RetoldAs before after → after.leaves = before.leaves
  | .same _ => rfl
  | .emphasized h => by simp [h.leaves_eq]
  | .strong h => by simp [h.leaves_eq]
  | .link h => by simp [h.leaves_eq]
  | .reference h => h.leaves_eq

theorem Spans.Becomes.leaves_eq {before after : List Span} :
    Spans.Becomes ReferenceKind.RetoldAs before after →
      Spans.leaves after = Spans.leaves before
  | .nil => rfl
  | .cons h hrest => by simp [h.leaves_eq, hrest.leaves_eq]

end

mutual

/-- Only link definitions and aliases disappear, which have no leaves. -/
theorem Block.Becomes.leaves_eq {before : Block} {after : Option Block} :
    Block.Becomes ReferenceKind.RetoldAs before after →
      Blocks.leaves after.toList = before.leaves
  | .same _ => by simp
  | .definition => by simp
  | .indirection => by simp
  | .paragraph h => by simp [h.leaves_eq]
  | .header h => by simp [h.leaves_eq]
  | .title h => by simp [h.leaves_eq]
  | .sectionOf htext h => by simp [htext.leaves_eq, h.leaves_eq]
  | .quoted h => by simp [h.leaves_eq]
  | .citation h => by simp [h.leaves_eq]
  | .footnoteDefinition h => by simp [h.leaves_eq]
  | .numbered h => by simp [h.leaves_eq]
  | .footnote h => by simp [h.leaves_eq]
  | .reference h => by
      have hspan := h.leaves_eq
      simpa [Block.leaves_blockOfSpan] using hspan
  | .unusable _ h => by simpa using h.leaves_eq
  | .invalid h _ => by simpa using h.leaves_eq
  | .sealed _ => by simp

theorem Blocks.Becomes.leaves_eq {before after : List Block} :
    Blocks.Becomes ReferenceKind.RetoldAs before after →
      Blocks.leaves after = Blocks.leaves before
  | .nil => rfl
  | .cons h hrest => by simp [h.leaves_eq, hrest.leaves_eq]

end

/-- Every document keeps its path and its leaves. Outlining keeps the
references, and in the outlined document each of them becomes what
`ReferenceKind.RetoldAs` says, which is an invalid span only around a
reference with the same source. -/
theorem DocumentRoot.resolve_keeps_content (r : DocumentRoot) (workers : Nat) :
    List.Forall₂ (fun d final => final.path = d.path
        ∧ Blocks.leaves final.content = Blocks.leaves d.content
        ∧ Blocks.references d.outlined.content = Blocks.references d.content
        ∧ Blocks.Becomes ReferenceKind.RetoldAs d.outlined.content final.content)
      r.documents (r.resolve workers).root.documents
    ∧ ∀ kind source fallback problem,
      ReferenceKind.RetoldAs kind source (.invalid fallback problem) →
        ∃ kind', ReferenceKind.Retold kind kind'
          ∧ fallback = .reference kind' source := by
  refine ⟨?_, fun kind source fallback problem h => h.fallback_eq rfl⟩
  rw [documents_resolve, List.forall₂_map_right_iff, List.forall₂_same]
  intro d _
  obtain ⟨_, hfirst, -⟩ := d.yields_settled
  obtain ⟨_, hsecond, -⟩ := d.yields_finished r.settledIndex
  have hbecomes := hfirst.becomes (Scope.allows_retoldAs _ _) hsecond
  refine ⟨rfl, hbecomes.leaves_eq.trans ?_, ?_, hbecomes⟩
  · exact Blocks.leaves_buildOutline _ _
  · exact Blocks.references_buildOutline _ _

end Crosslink
