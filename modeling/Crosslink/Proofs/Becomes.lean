import Crosslink.Proofs.Yields

/-!
# From a reference to what it comes to

`Blocks.Becomes R before after` says that `after` is `before` with every
reference that a pass reaches replaced by something that `R` allows; the
text around it stays, definitions may disappear, and targets may become
invalid around their content. References in the text of another reference
are left to it. Two passes one after the other are of this form, where `R`
is what the first and then the second pass make of a single reference
(`Blocks.Yields.becomes`).
-/

namespace Crosslink

/-- Nothing in the span is resolved. -/
def Span.isLeaf : Span → Bool
  | .text _ => true
  | .literal _ => true
  | .verbatim _ _ => true
  | .image _ _ _ => true
  | .citationLink _ _ => true
  | .footnoteLink _ _ => true
  | .invalid _ _ => true
  | _ => false

def Block.isLeaf : Block → Bool
  | .codeBlock _ _ => true
  | .rule => true
  | .verbatim _ _ => true
  | .decoratedHeader _ => true
  | .anchor _ => true
  | .linkDefinition _ => true
  | .linkAlias _ => true
  | _ => false

/-- The block declares something that may be unusable. -/
def Block.isTarget : Block → Bool
  | .header _ => true
  | .title _ => true
  | .sectionOf _ _ => true
  | .anchor _ => true
  | .linkDefinition _ => true
  | .linkAlias _ => true
  | .citation _ _ _ => true
  | .footnoteDefinition _ _ => true
  | _ => false

section

variable (R : ReferenceKind → (source : String) → Span → Prop)

mutual

/-- The span with its references replaced as `R` allows. -/
inductive Span.Becomes : Span → Span → Prop
  | same {span : Span} (h : span.isLeaf = true) : Span.Becomes span span
  | emphasized {content content' : List Span} (h : Spans.Becomes content content') :
      Span.Becomes (.emphasized content) (.emphasized content')
  | strong {content content' : List Span} (h : Spans.Becomes content content') :
      Span.Becomes (.strong content) (.strong content')
  | link {content content' : List Span} {target : Target}
      {title : Option String} (h : Spans.Becomes content content') :
      Span.Becomes (.link content target title) (.link content' target title)
  | reference {kind : ReferenceKind} {source : String} {out : Span}
      (h : R kind source out) : Span.Becomes (.reference kind source) out

inductive Spans.Becomes : List Span → List Span → Prop
  | nil : Spans.Becomes [] []
  | cons {span out : Span} {spans outs : List Span} (h : Span.Becomes span out)
      (hrest : Spans.Becomes spans outs) :
      Spans.Becomes (span :: spans) (out :: outs)

end

mutual

/-- The block with its references replaced as `R` allows; it may have
disappeared. -/
inductive Block.Becomes : Block → Option Block → Prop
  | same {block : Block} (h : block.isLeaf = true) :
      Block.Becomes block (some block)
  | definition {definition : LinkDefinition} :
      Block.Becomes (.linkDefinition definition) none
  | indirection {indirection : LinkAlias} :
      Block.Becomes (.linkAlias indirection) none
  | paragraph {content content' : List Span}
      (h : Spans.Becomes R content content') :
      Block.Becomes (.paragraph content) (some (.paragraph content'))
  | header {header : Header} {text : List Span}
      (h : Spans.Becomes R header.content text) :
      Block.Becomes (.header header)
        (some (.header { header with content := text }))
  | title {title : Title} {text : List Span}
      (h : Spans.Becomes R title.content text) :
      Block.Becomes (.title title) (some (.title { title with content := text }))
  | sectionOf {header : Header} {text : List Span} {content content' : List Block}
      (htext : Spans.Becomes R header.content text)
      (h : Blocks.Becomes content content') :
      Block.Becomes (.sectionOf header content)
        (some (.sectionOf { header with content := text } content'))
  | quoted {content content' : List Block} (h : Blocks.Becomes content content') :
      Block.Becomes (.quoted content) (some (.quoted content'))
  | citation {label : String} {id id' : Option String}
      {content content' : List Block} (h : Blocks.Becomes content content') :
      Block.Becomes (.citation label id content)
        (some (.citation label id' content'))
  | footnoteDefinition {label : FootnoteLabel} {content content' : List Block}
      (h : Blocks.Becomes content content') :
      Block.Becomes (.footnoteDefinition label content)
        (some (.footnoteDefinition label content'))
  | numbered {label : FootnoteLabel} {id shown : String}
      {content content' : List Block} (h : Blocks.Becomes content content') :
      Block.Becomes (.footnoteDefinition label content)
        (some (.footnote id shown content'))
  | footnote {id label : String} {content content' : List Block}
      (h : Blocks.Becomes content content') :
      Block.Becomes (.footnote id label content)
        (some (.footnote id label content'))
  | reference {kind : ReferenceKind} {source : String} {out : Span}
      (h : R kind source out) :
      Block.Becomes (.reference kind source) (some (Scope.blockOfSpan out))
  | unusable {block out : Block} {problem : Problem}
      (htarget : block.isTarget = true) (h : Block.Becomes block (some out)) :
      Block.Becomes block (some (.invalid out problem))
  | invalid {fallback out : Block} {problem : Problem}
      (h : Block.Becomes fallback (some out)) (hopen : fallback.isSealed = false) :
      Block.Becomes (.invalid fallback problem) (some (.invalid out problem))
  | sealed {fallback : Block} {problem : Problem}
      (h : fallback.isSealed = true) :
      Block.Becomes (.invalid fallback problem) (some (.invalid fallback problem))

inductive Blocks.Becomes : List Block → List Block → Prop
  | nil : Blocks.Becomes [] []
  | cons {block : Block} {out : Option Block} {blocks outs : List Block}
      (h : Block.Becomes block out) (hrest : Blocks.Becomes blocks outs) :
      Blocks.Becomes (block :: blocks) (out.toList ++ outs)

end

end

/-! ## A pass over a sequence, taken apart -/

section

variable {s : Scope}

theorem Spans.Yields.singleton {span : Span} {outs : List Span}
    {problems : List Problem} (h : Spans.Yields s [span] outs problems) :
    ∃ out, outs = [out] ∧ Span.Yields s span out problems := by
  cases h with
  | cons h hrest =>
      cases hrest
      rw [List.append_nil]
      exact ⟨_, rfl, h⟩

theorem Blocks.Yields.singleton {block : Block} {outs : List Block}
    {problems : List Problem} (h : Blocks.Yields s [block] outs problems) :
    ∃ out : Option Block, outs = out.toList ∧ Block.Yields s block out problems := by
  cases h with
  | cons h hrest =>
      cases hrest
      rw [List.append_nil, List.append_nil]
      exact ⟨_, rfl, h⟩

theorem Blocks.Yields.append {first second outs : List Block}
    {problems : List Problem} (h : Blocks.Yields s (first ++ second) outs problems) :
    ∃ outs₁ outs₂ problems₁ problems₂, outs = outs₁ ++ outs₂
      ∧ Blocks.Yields s first outs₁ problems₁
      ∧ Blocks.Yields s second outs₂ problems₂ := by
  induction first generalizing outs problems with
  | nil => exact ⟨[], outs, [], problems, rfl, .nil, h⟩
  | cons block first ih =>
      cases h with
      | cons h hrest =>
          obtain ⟨outs₁, outs₂, _, _, rfl, hfirst, hsecond⟩ := ih hrest
          exact ⟨_, outs₂, _, _, (List.append_assoc _ _ _).symm,
            .cons h hfirst, hsecond⟩

end

/-! ## One pass -/

section

variable {s : Scope}

mutual

theorem Span.Yields.becomes_once {before after : Span} {problems : List Problem} :
    Span.Yields s before after problems →
      Span.Becomes (fun _ _ _ => True) before after
  | .text | .literal | .verbatim | .image | .citationLink | .footnoteLink
  | .invalid => .same rfl
  | .emphasized h => .emphasized h.becomes_once
  | .strong h => .strong h.becomes_once
  | .link h => .link h.becomes_once
  | .reference _ => .reference trivial

theorem Spans.Yields.becomes_once {before after : List Span}
    {problems : List Problem} :
    Spans.Yields s before after problems →
      Spans.Becomes (fun _ _ _ => True) before after
  | .nil => .nil
  | .cons h hrest => .cons h.becomes_once hrest.becomes_once

end

end

/-! ## Two passes -/

section

variable {s s' : Scope} {R : ReferenceKind → (source : String) → Span → Prop}

/-- What two passes make of a reference is among what `R` allows. -/
def Scope.Allows (s s' : Scope)
    (R : ReferenceKind → (source : String) → Span → Prop) : Prop :=
  ∀ (kind : ReferenceKind) (source : String) (middle out : Span)
    (first second : List Problem), ReferenceKind.Yields s kind source middle first →
      Span.Yields s' middle out second → R kind source out

mutual

theorem Span.Yields.becomes {before middle after : Span}
    {first second : List Problem} (hR : s.Allows s' R) :
    Span.Yields s before middle first → Span.Yields s' middle after second →
      Span.Becomes R before after
  | .text, h' => by cases h'; exact .same rfl
  | .literal, h' => by cases h'; exact .same rfl
  | .verbatim, h' => by cases h'; exact .same rfl
  | .image, h' => by cases h'; exact .same rfl
  | .citationLink, h' => by cases h'; exact .same rfl
  | .footnoteLink, h' => by cases h'; exact .same rfl
  | .invalid, h' => by cases h'; exact .same rfl
  | .emphasized h, h' => by
      cases h' with
      | emphasized h' => exact .emphasized (h.becomes hR h')
  | .strong h, h' => by
      cases h' with
      | strong h' => exact .strong (h.becomes hR h')
  | .link h, h' => by
      cases h' with
      | link h' => exact .link (h.becomes hR h')
  | .reference h, h' => .reference (hR _ _ _ _ _ _ h h')

theorem Spans.Yields.becomes {before middle after : List Span}
    {first second : List Problem} (hR : s.Allows s' R) :
    Spans.Yields s before middle first → Spans.Yields s' middle after second →
      Spans.Becomes R before after
  | .nil, h' => by cases h'; exact .nil
  | .cons h hrest, h' => by
      cases h' with
      | cons h' hrest' => exact .cons (h.becomes hR h') (hrest.becomes hR hrest')

end

theorem Block.YieldsInside.of_isSealed {block out : Block}
    {problems : List Problem} (h : Block.YieldsInside s block out problems)
    (hsealed : block.isSealed = true) : out = block ∧ problems = [] := by
  cases h with
  | sealed _ => exact ⟨rfl, rfl⟩
  | _ => cases hsealed

/-- An invalid block stays one; at most its fallback changes. -/
theorem Blocks.Yields.of_invalid {fallback : Block} {problem : Problem}
    {outs : List Block} {problems : List Problem}
    (h : Blocks.Yields s [.invalid fallback problem] outs problems) :
    ∃ fallback', outs = [.invalid fallback' problem]
      ∧ Block.YieldsInside s fallback fallback' problems := by
  obtain ⟨out, rfl, hblock⟩ := h.singleton
  cases hblock with
  | invalid hinside => exact ⟨_, rfl, hinside⟩

theorem Blocks.Yields.of_sealed {fallback : Block} {problem : Problem}
    {outs : List Block} {problems : List Problem}
    (h : Blocks.Yields s [.invalid fallback problem] outs problems)
    (hsealed : fallback.isSealed = true) :
    outs = [.invalid fallback problem] ∧ problems = [] := by
  obtain ⟨fallback', rfl, hinside⟩ := h.of_invalid
  obtain ⟨rfl, rfl⟩ := hinside.of_isSealed hsealed
  exact ⟨rfl, rfl⟩

/-- A pass treats a resolved reference that stands as a block as it treats
the reference itself. -/
theorem Blocks.Yields.of_blockOfSpan {middle : Span} {outs : List Block}
    {problems : List Problem}
    (h : Blocks.Yields s [Scope.blockOfSpan middle] outs problems) :
    ∃ after, Span.Yields s middle after problems
      ∧ outs = [Scope.blockOfSpan after] := by
  have hparagraph : ∀ {span : Span},
      Blocks.Yields s [.paragraph [span]] outs problems →
        ∃ after, Span.Yields s span after problems ∧ outs = [.paragraph [after]] := by
    intro span h
    obtain ⟨out, rfl, hblock⟩ := h.singleton
    cases hblock with
    | paragraph htext =>
        obtain ⟨after, rfl, hspan⟩ := htext.singleton
        exact ⟨after, hspan, rfl⟩
  cases middle with
  | reference kind source =>
      obtain ⟨out, rfl, hblock⟩ := h.singleton
      cases hblock with
      | reference hkind => exact ⟨_, .reference hkind, rfl⟩
  | invalid fallback problem =>
      refine ⟨.invalid fallback problem, ?_⟩
      cases fallback with
      | reference kind source =>
          obtain ⟨rfl, rfl⟩ := h.of_sealed rfl
          exact ⟨.invalid, rfl⟩
      | _ =>
          obtain ⟨rfl, rfl⟩ := h.of_sealed rfl
          exact ⟨.invalid, rfl⟩
  | _ =>
      obtain ⟨after, hspan, rfl⟩ := hparagraph h
      refine ⟨after, hspan, ?_⟩
      cases hspan
      rfl

namespace Scope

/-- A target, checked again, stays or becomes invalid. -/
theorem ChecksAnchor.becomes {id : Option String} {before block out : Block}
    {problems : List Problem} (h : s.ChecksAnchor id block out problems)
    (htarget : before.isTarget = true)
    (hblock : Block.Becomes R before (some block)) :
    Block.Becomes R before (some out) := by
  cases h with
  | kept _ => exact hblock
  | repeated _ _ => exact .unusable htarget hblock

theorem FinishesCitation.becomes {label : String} {id id' : Option String}
    {content content' : List Block} {out : Block} {problems : List Problem}
    (h : s.FinishesCitation label id content' out problems)
    (hcontent : Blocks.Becomes R content content') :
    Block.Becomes R (.citation label id' content) (some out) := by
  cases h with
  | kept _ _ => exact .citation hcontent
  | nameless _ => exact .unusable rfl (.citation hcontent)
  | repeated _ _ => exact .unusable rfl (.citation hcontent)

end Scope

theorem Block.YieldsInside.becomes_citation {label : String}
    {id id' : Option String} {content middle : List Block} {out : Block}
    {problems : List Problem}
    (h : Block.YieldsInside s (.citation label id middle) out problems)
    (hcontent : ∀ {after : List Block} {problems : List Problem},
      Blocks.Yields s middle after problems → Blocks.Becomes R content after) :
    Block.Becomes R (.citation label id' content) (some out) := by
  cases h with
  | citation h => exact .citation (hcontent h)
  | sealed h => cases h

theorem Block.YieldsInside.becomes_footnoteDefinition {label : FootnoteLabel}
    {content middle : List Block} {out : Block} {problems : List Problem}
    (h : Block.YieldsInside s (.footnoteDefinition label middle) out problems)
    (hcontent : ∀ {after : List Block} {problems : List Problem},
      Blocks.Yields s middle after problems → Blocks.Becomes R content after) :
    Block.Becomes R (.footnoteDefinition label content) (some out) := by
  cases h with
  | footnoteDefinition h => exact .footnoteDefinition (hcontent h)
  | sealed h => cases h

theorem Block.YieldsInside.becomes_header {header : Header} {middle : List Span}
    {out : Block} {problems : List Problem}
    (h : Block.YieldsInside s (.header { header with content := middle }) out
      problems)
    (htext : ∀ {after : List Span} {problems : List Problem},
      Spans.Yields s middle after problems →
        Spans.Becomes R header.content after) :
    Block.Becomes R (.header header) (some out) := by
  cases h with
  | header h => exact .header (htext h)
  | sealed h => cases h

theorem Block.YieldsInside.becomes_title {title : Title} {middle : List Span}
    {out : Block} {problems : List Problem}
    (h : Block.YieldsInside s (.title { title with content := middle }) out
      problems)
    (htext : ∀ {after : List Span} {problems : List Problem},
      Spans.Yields s middle after problems →
        Spans.Becomes R title.content after) :
    Block.Becomes R (.title title) (some out) := by
  cases h with
  | title h => exact .title (htext h)
  | sealed h => cases h

theorem Block.YieldsInside.becomes_sectionOf {header : Header}
    {middle : List Span} {content inner : List Block} {out : Block}
    {problems : List Problem}
    (h : Block.YieldsInside s (.sectionOf { header with content := middle } inner)
      out problems)
    (htext : ∀ {after : List Span} {problems : List Problem},
      Spans.Yields s middle after problems →
        Spans.Becomes R header.content after)
    (hcontent : ∀ {after : List Block} {problems : List Problem},
      Blocks.Yields s inner after problems → Blocks.Becomes R content after) :
    Block.Becomes R (.sectionOf header content) (some out) := by
  cases h with
  | sectionOf h h' => exact .sectionOf (htext h) (hcontent h')
  | sealed h => cases h

mutual

theorem Block.Yields.becomes {before : Block} {middle : Option Block}
    {after : List Block} {first second : List Problem} (hR : s.Allows s' R) :
    Block.Yields s before middle first →
      Blocks.Yields s' middle.toList after second →
      ∃ out : Option Block, after = out.toList ∧ Block.Becomes R before out
  | .paragraph h, h' => by
      obtain ⟨out, rfl, hblock⟩ := h'.singleton
      cases hblock with
      | paragraph htext' => exact ⟨_, rfl, .paragraph (h.becomes hR htext')⟩
  | .codeBlock, h' => by
      obtain ⟨out, rfl, hblock⟩ := h'.singleton
      cases hblock
      exact ⟨_, rfl, .same rfl⟩
  | .rule, h' => by
      obtain ⟨out, rfl, hblock⟩ := h'.singleton
      cases hblock
      exact ⟨_, rfl, .same rfl⟩
  | .verbatim, h' => by
      obtain ⟨out, rfl, hblock⟩ := h'.singleton
      cases hblock
      exact ⟨_, rfl, .same rfl⟩
  | .decoratedHeader, h' => by
      obtain ⟨out, rfl, hblock⟩ := h'.singleton
      cases hblock
      exact ⟨_, rfl, .same rfl⟩
  | .header htext h, h' => by
      cases h with
      | kept _ =>
          obtain ⟨out, rfl, hblock⟩ := h'.singleton
          cases hblock with
          | header htext' hcheck' =>
              exact ⟨_, rfl, hcheck'.becomes rfl (.header (htext.becomes hR htext'))⟩
      | repeated _ _ =>
          obtain ⟨out, rfl, hinside⟩ := h'.of_invalid
          exact ⟨some _, rfl,
            .unusable rfl (hinside.becomes_header (htext.becomes hR))⟩
  | .title htext h, h' => by
      cases h with
      | kept _ =>
          obtain ⟨out, rfl, hblock⟩ := h'.singleton
          cases hblock with
          | title htext' hcheck' =>
              exact ⟨_, rfl, hcheck'.becomes rfl (.title (htext.becomes hR htext'))⟩
      | repeated _ _ =>
          obtain ⟨out, rfl, hinside⟩ := h'.of_invalid
          exact ⟨some _, rfl,
            .unusable rfl (hinside.becomes_title (htext.becomes hR))⟩
  | .sectionOf htext hcontent h, h' => by
      cases h with
      | kept _ =>
          obtain ⟨out, rfl, hblock⟩ := h'.singleton
          cases hblock with
          | sectionOf htext' hcontent' hcheck' =>
              exact ⟨_, rfl, hcheck'.becomes rfl (.sectionOf (htext.becomes hR htext')
                (hcontent.becomes hR hcontent'))⟩
      | repeated _ _ =>
          obtain ⟨out, rfl, hinside⟩ := h'.of_invalid
          exact ⟨some _, rfl, .unusable rfl (hinside.becomes_sectionOf
            (htext.becomes hR) (hcontent.becomes hR))⟩
  | .quoted h, h' => by
      obtain ⟨out, rfl, hblock⟩ := h'.singleton
      cases hblock with
      | quoted hcontent' => exact ⟨_, rfl, .quoted (h.becomes hR hcontent')⟩
  | .anchor h, h' => by
      cases h with
      | kept _ =>
          obtain ⟨out, rfl, hblock⟩ := h'.singleton
          cases hblock with
          | anchor hcheck' => exact ⟨_, rfl, hcheck'.becomes rfl (.same rfl)⟩
      | repeated _ _ =>
          obtain ⟨rfl, -⟩ := h'.of_sealed rfl
          exact ⟨some _, rfl, .unusable rfl (.same rfl)⟩
  | .linkDefinition h, h' => by
      cases h with
      | repeated _ _ _ =>
          obtain ⟨rfl, -⟩ := h'.of_sealed rfl
          exact ⟨some _, rfl, .unusable rfl (.same rfl)⟩
      | external _ =>
          cases h'
          exact ⟨none, rfl, .definition⟩
      | internal _ _ =>
          cases h'
          exact ⟨none, rfl, .definition⟩
  | .linkAlias h, h' => by
      cases h with
      | repeated _ =>
          obtain ⟨rfl, -⟩ := h'.of_sealed rfl
          exact ⟨some _, rfl, .unusable rfl (.same rfl)⟩
      | looping _ _ _ =>
          obtain ⟨rfl, -⟩ := h'.of_sealed rfl
          exact ⟨some _, rfl, .unusable rfl (.same rfl)⟩
      | dropped _ _ _ =>
          cases h'
          exact ⟨none, rfl, .indirection⟩
  | .citation hcontent h, h' => by
      cases h with
      | kept _ _ =>
          obtain ⟨out, rfl, hblock⟩ := h'.singleton
          cases hblock with
          | citation hcontent' hfinish' =>
              exact ⟨_, rfl, hfinish'.becomes (hcontent.becomes hR hcontent')⟩
      | nameless _ =>
          obtain ⟨out, rfl, hinside⟩ := h'.of_invalid
          exact ⟨some _, rfl,
            .unusable rfl (hinside.becomes_citation (hcontent.becomes hR))⟩
      | repeated _ _ =>
          obtain ⟨out, rfl, hinside⟩ := h'.of_invalid
          exact ⟨some _, rfl,
            .unusable rfl (hinside.becomes_citation (hcontent.becomes hR))⟩
  | .footnoteDefinition hcontent h, h' => by
      cases h with
      | numbered _ _ =>
          obtain ⟨out, rfl, hblock⟩ := h'.singleton
          cases hblock with
          | footnote hcontent' =>
              exact ⟨_, rfl, .numbered (hcontent.becomes hR hcontent')⟩
      | repeated _ =>
          obtain ⟨out, rfl, hinside⟩ := h'.of_invalid
          exact ⟨some _, rfl, .unusable rfl
            (hinside.becomes_footnoteDefinition (hcontent.becomes hR))⟩
      | nameless _ _ =>
          obtain ⟨out, rfl, hinside⟩ := h'.of_invalid
          exact ⟨some _, rfl, .unusable rfl
            (hinside.becomes_footnoteDefinition (hcontent.becomes hR))⟩
  | .footnote h, h' => by
      obtain ⟨out, rfl, hblock⟩ := h'.singleton
      cases hblock with
      | footnote hcontent' => exact ⟨_, rfl, .footnote (h.becomes hR hcontent')⟩
  | .reference h, h' => by
      obtain ⟨out, hspan, rfl⟩ := h'.of_blockOfSpan
      exact ⟨some _, rfl, .reference (hR _ _ _ _ _ _ h hspan)⟩
  | .invalid h, h' => by
      obtain ⟨out, rfl, hinside⟩ := h'.of_invalid
      exact ⟨some _, rfl, h.becomes hR hinside⟩

theorem Block.YieldsInside.becomes {before middle after : Block}
    {problem : Problem} {first second : List Problem} (hR : s.Allows s' R) :
    Block.YieldsInside s before middle first →
      Block.YieldsInside s' middle after second →
      Block.Becomes R (.invalid before problem) (some (.invalid after problem))
  | .citation h, h' => .invalid (h'.becomes_citation (h.becomes hR)) rfl
  | .footnoteDefinition h, h' =>
      .invalid (h'.becomes_footnoteDefinition (h.becomes hR)) rfl
  | .header h, h' => .invalid (h'.becomes_header (h.becomes hR)) rfl
  | .sectionOf htext h, h' =>
      .invalid (h'.becomes_sectionOf (htext.becomes hR) (h.becomes hR)) rfl
  | .title h, h' => .invalid (h'.becomes_title (h.becomes hR)) rfl
  | .sealed h, h' => by
      obtain ⟨rfl, -⟩ := h'.of_isSealed h
      exact .sealed h

/-- What two passes make of blocks, reference by reference. -/
theorem Blocks.Yields.becomes {before middle after : List Block}
    {first second : List Problem} (hR : s.Allows s' R) :
    Blocks.Yields s before middle first → Blocks.Yields s' middle after second →
      Blocks.Becomes R before after
  | .nil, h' => by cases h'; exact .nil
  | .cons h hrest, h' => by
      obtain ⟨outs₁, outs₂, _, _, rfl, hfirst, hsecond⟩ := h'.append
      obtain ⟨out, rfl, hblock⟩ := h.becomes hR hfirst
      exact .cons hblock (hrest.becomes hR hsecond)

end

end

end Crosslink
