import Crosslink.Proofs.Becomes
import Crosslink.Proofs.Names

/-!
# Repeated names

A name declared twice is unusable, and nothing else is for that reason.
`Blocks.Rewritten R J` says that blocks were rewritten from the inside out:
every reference was replaced as `R` allows and every block that declares
something as `J` allows, once what is inside it was rewritten. Of the first
pass this holds with `R` and `J` read off the names of the document
(`Document.repeated_unusable`): each declaration of a repeated name is made
invalid around its rewritten content, each reference that ends at one is
invalid with the same problem, and a declaration that is the only one is not
reported as repeated.
-/

namespace Crosslink

/-! ## Rewriting from the inside out -/

/-- The text of the reference is not looked at before the reference is. -/
def ReferenceKind.isWhole : ReferenceKind → Bool
  | .linkId _ _ => false
  | _ => true

/-- The id that a citation gets from its label, if it has one. -/
def citationId (label : String) (id : Option String) : Option String :=
  if label = "" then id else some ("__cit-" ++ label)

section

variable (R : ReferenceKind → (source : String) → Span → Prop)

mutual

inductive Span.Rewritten : Span → Span → Prop
  | same {span : Span} (h : span.isLeaf = true) : Span.Rewritten span span
  | emphasized {content content' : List Span}
      (h : Spans.Rewritten content content') :
      Span.Rewritten (.emphasized content) (.emphasized content')
  | strong {content content' : List Span} (h : Spans.Rewritten content content') :
      Span.Rewritten (.strong content) (.strong content')
  | link {content content' : List Span} {target : Target}
      {title : Option String} (h : Spans.Rewritten content content') :
      Span.Rewritten (.link content target title) (.link content' target title)
  | reference {kind : ReferenceKind} {source : String} {out : Span}
      (h : ReferenceKind.Rewritten kind source out) :
      Span.Rewritten (.reference kind source) out

/-- The reference was replaced as `R` allows, after its text. -/
inductive ReferenceKind.Rewritten : ReferenceKind → String → Span → Prop
  | linkId {content content' : List Span} {id source : String} {out : Span}
      (hcontent : Spans.Rewritten content content')
      (h : R (.linkId content' id) source out) :
      ReferenceKind.Rewritten (.linkId content id) source out
  | whole {kind : ReferenceKind} {source : String} {out : Span}
      (hkind : kind.isWhole = true) (h : R kind source out) :
      ReferenceKind.Rewritten kind source out

inductive Spans.Rewritten : List Span → List Span → Prop
  | nil : Spans.Rewritten [] []
  | cons {span out : Span} {spans outs : List Span}
      (h : Span.Rewritten span out) (hrest : Spans.Rewritten spans outs) :
      Spans.Rewritten (span :: spans) (out :: outs)

end

variable (J : Block → Option Block → Prop)

mutual

/-- The block was rewritten from the inside out; it may have disappeared. An
invalid block is never rewritten so. -/
inductive Block.Rewritten : Block → Option Block → Prop
  | same {block : Block} (h : block.isLeaf = true)
      (hplain : block.isTarget = false) : Block.Rewritten block (some block)
  | target {block : Block} {out : Option Block} (h : block.isLeaf = true)
      (htarget : block.isTarget = true) (hJ : J block out) :
      Block.Rewritten block out
  | paragraph {content content' : List Span}
      (h : Spans.Rewritten R content content') :
      Block.Rewritten (.paragraph content) (some (.paragraph content'))
  | header {header : Header} {text : List Span} {out : Option Block}
      (h : Spans.Rewritten R header.content text)
      (hJ : J (.header { header with content := text }) out) :
      Block.Rewritten (.header header) out
  | title {title : Title} {text : List Span} {out : Option Block}
      (h : Spans.Rewritten R title.content text)
      (hJ : J (.title { title with content := text }) out) :
      Block.Rewritten (.title title) out
  | sectionOf {header : Header} {text : List Span} {content content' : List Block}
      {out : Option Block} (htext : Spans.Rewritten R header.content text)
      (h : Blocks.Rewritten content content')
      (hJ : J (.sectionOf { header with content := text } content') out) :
      Block.Rewritten (.sectionOf header content) out
  | quoted {content content' : List Block}
      (h : Blocks.Rewritten content content') :
      Block.Rewritten (.quoted content) (some (.quoted content'))
  | citation {label : String} {id : Option String}
      {content content' : List Block} {out : Option Block}
      (h : Blocks.Rewritten content content')
      (hJ : J (.citation label (citationId label id) content') out) :
      Block.Rewritten (.citation label id content) out
  | footnoteDefinition {label : FootnoteLabel} {content content' : List Block}
      {out : Option Block} (h : Blocks.Rewritten content content')
      (hJ : J (.footnoteDefinition label content') out) :
      Block.Rewritten (.footnoteDefinition label content) out
  | footnote {id label : String} {content content' : List Block}
      (h : Blocks.Rewritten content content') :
      Block.Rewritten (.footnote id label content)
        (some (.footnote id label content'))
  | reference {kind : ReferenceKind} {source : String} {span : Span}
      (h : ReferenceKind.Rewritten R kind source span) :
      Block.Rewritten (.reference kind source) (some (Scope.blockOfSpan span))

inductive Blocks.Rewritten : List Block → List Block → Prop
  | nil : Blocks.Rewritten [] []
  | cons {block : Block} {out : Option Block} {blocks outs : List Block}
      (h : Block.Rewritten block out) (hrest : Blocks.Rewritten blocks outs) :
      Blocks.Rewritten (block :: blocks) (out.toList ++ outs)

end

end

/-! ## What repetition does to a reference or a declaration -/

/-- How the repetition of a name is reported. -/
def Name.failure (name : Name) (document : AbsolutePath) : Failure :=
  match name.space with
  | .link => .duplicateDefinition name.id document
  | _ => .duplicateTarget name.id document

theorem Name.kind_failure (name : Name) (document : AbsolutePath) :
    (name.failure document).problem.kind = .duplicateIdentifier := by
  obtain ⟨space, id⟩ := name
  cases space <;> rfl

/-- What becomes of the declaration of a repeated name. -/
def Block.unusable (problem : Problem) : Block → Option Block
  | .linkDefinition ⟨_, .external _, _⟩ => none
  | block => some (.invalid block problem)

def ReferenceKind.id? : ReferenceKind → Option String
  | .imageId _ id => some id
  | .linkId _ id => some id
  | _ => none

namespace Scope

/-- The look-up of a reference ends at a name: at its label, or, at the end
of its chain of aliases, among the link definitions first and among the
anchors if there is no such definition. -/
inductive LooksUp (s : Scope) (names : List Name) : ReferenceKind → Name → Prop
  | citation {label : String} (h : label ≠ "") :
      LooksUp s names (.citation label) ⟨.citation, label⟩
  | numericFootnote {number : Nat} :
      LooksUp s names (.footnote (.numeric number))
        ⟨.numericFootnote, toString number⟩
  | labelledFootnote {label : String} (h : label ≠ "") :
      LooksUp s names (.footnote (.labelled label)) ⟨.labelledFootnote, label⟩
  | definition {kind : ReferenceKind} {n : Nat} {id last : String}
      (hkind : kind.id? = some id) (hid : id ≠ "") (hlead : s.Leads n id last)
      (hreach : n < Failure.maxAliasDepth) (hdefined : ⟨.link, last⟩ ∈ names) :
      LooksUp s names kind ⟨.link, last⟩
  | anchor {kind : ReferenceKind} {n : Nat} {id last : String}
      (hkind : kind.id? = some id) (hid : id ≠ "") (hlead : s.Leads n id last)
      (hreach : n < Failure.maxAliasDepth) (hfree : ⟨.link, last⟩ ∉ names) :
      LooksUp s names kind ⟨.anchor, last⟩

/-- A reference whose look-up ends at a repeated name is invalid. -/
def Refuses (s : Scope) (names : List Name) (kind : ReferenceKind)
    (source : String) (out : Span) : Prop :=
  ∀ name, s.LooksUp names kind name → 2 ≤ names.count name →
    out = .invalid (.reference kind source) (name.failure s.document).problem

/-- A declaration is unusable if its name is repeated, and is not reported as
repeated if it is the only one. -/
def Judges (s : Scope) (names : List Name) (block : Block)
    (out : Option Block) : Prop :=
  ∀ name, block.name? = some name → name.id ≠ "" →
    (2 ≤ names.count name →
        out = block.unusable (name.failure s.document).problem)
      ∧ (names.count name = 1 → ∀ fallback problem,
          out = some (.invalid fallback problem) →
            problem.kind ≠ .duplicateIdentifier)

/-- The names are those that the index of the scope counts. -/
def Counts (s : Scope) (names : List Name) : Prop :=
  ∀ name, s.index.occurrences name = names.count name

/-! ## The first pass, reference by reference -/

section

variable {s : Scope} {names : List Name}

theorem citation_repeated (hnames : s.Counts names) {label : String} (hlabel : label ≠ "")
    (h : 2 ≤ names.count ⟨.citation, label⟩) :
    s.citation label = .error (.duplicateTarget label s.document) := by
  rw [← hnames] at h
  rw [citation, if_neg hlabel, Namespace.entry?_eq_duplicate.mpr h]

theorem Means.eq_of_repeated
    (hnames : s.Counts names)
    {label : FootnoteLabel} {found : Except Failure NumberedFootnote} {name : Name}
    (h : s.Means label found) (hlooks : s.LooksUp names (.footnote label) name)
    (hrepeated : 2 ≤ names.count name) :
    found = .error (name.failure s.document) := by
  rw [← hnames] at hrepeated
  cases hlooks with
  | @numericFootnote number =>
      cases h with
      | numeric =>
          simp only [numericFootnote, Namespace.entry?_eq_duplicate.mpr hrepeated]
          rfl
  | labelledFootnote hlabel =>
      cases h with
      | labelled =>
          rw [labelledFootnote, if_neg hlabel,
            Namespace.entry?_eq_duplicate.mpr hrepeated]
          rfl
  | definition hkind => cases hkind
  | anchor hkind => cases hkind

/-- The search of an id that ends at a repeated name fails. -/
theorem AnswersReference.eq_of_repeated
    (hnames : s.Counts names)
    {kind : ReferenceKind} {id : String} {outcome : IdOutcome} {name : Name}
    (h : s.AnswersReference id outcome) (hkind : kind.id? = some id)
    (hlooks : s.LooksUp names kind name) (hrepeated : 2 ≤ names.count name) :
    outcome = .failed (name.failure s.document) := by
  have hend : ∀ {n last}, id ≠ "" → s.Leads n id last →
      n < Failure.maxAliasDepth → outcome = s.outcomeOf last := by
    intro n last hid hlead hreach
    rw [AnswersReference, if_neg hid] at h
    exact h.eq_outcomeOf hlead hreach
  rw [← hnames] at hrepeated
  cases hlooks with
  | citation _ => cases hkind
  | numericFootnote => cases hkind
  | labelledFootnote _ => cases hkind
  | definition hkind' hid hlead hreach _ =>
      obtain rfl := Option.some.inj (hkind.symm.trans hkind')
      rw [hend hid hlead hreach, outcomeOf,
        Namespace.entry?_eq_duplicate.mpr hrepeated]
      rfl
  | @anchor _ _ _ last hkind' hid hlead hreach hfree =>
      obtain rfl := Option.some.inj (hkind.symm.trans hkind')
      have hnone : s.index.linkDefinitions.entry? last = none := by
        have hcount := hnames ⟨.link, last⟩
        rw [List.count_eq_zero_of_not_mem hfree] at hcount
        exact Namespace.entry?_eq_none.mpr (List.length_eq_zero_iff.mp hcount)
      rw [hend hid hlead hreach, outcomeOf, hnone, searchAnchors,
        Namespace.entry?_eq_duplicate.mpr hrepeated]
      rfl

theorem SettlesId.refuses
    (hnames : s.Counts names)
    {shown : Appearance} {kind : ReferenceKind} {id source : String}
    {outcome : IdOutcome} {out : Span} {problems : List Problem}
    (h : s.SettlesId shown id source outcome out problems)
    (hanswer : s.AnswersReference id outcome) (hkind : kind.id? = some id)
    (hshown : shown.byId id source = .reference kind source) :
    s.Refuses names kind source out := by
  intro name hlooks hrepeated
  rw [hanswer.eq_of_repeated hnames hkind hlooks hrepeated] at h
  cases h with
  | failed => rw [hshown]

/-- A reference by path has no look-up of an id. -/
theorem refuses_of_noId {kind : ReferenceKind} (source : String) (out : Span)
    (h : ∀ name, ¬ s.LooksUp names kind name) : s.Refuses names kind source out :=
  fun name hlooks => absurd hlooks (h name)

end

end Scope

section

variable {s : Scope} {names : List Name}

mutual

theorem Span.Yields.rewritten
    (hnames : s.Counts names)
    {before after : Span} {problems : List Problem} :
    Span.Yields s before after problems →
      Span.Rewritten (s.Refuses names) before after
  | .text | .literal | .verbatim | .image | .citationLink | .footnoteLink
  | .invalid => .same rfl
  | .emphasized h => .emphasized (h.rewritten hnames)
  | .strong h => .strong (h.rewritten hnames)
  | .link h => .link (h.rewritten hnames)
  | .reference h => .reference (h.rewritten hnames)

theorem ReferenceKind.Yields.rewritten
    (hnames : s.Counts names)
    {kind : ReferenceKind} {source : String} {out : Span}
    {problems : List Problem} :
    ReferenceKind.Yields s kind source out problems →
      ReferenceKind.Rewritten (s.Refuses names) kind source out
  | .citation h => by
      refine .whole rfl fun name hlooks hrepeated => ?_
      cases hlooks with
      | citation hlabel =>
          rw [Scope.citation_repeated hnames hlabel hrepeated] at h
          cases h
      | definition hkind => cases hkind
      | anchor hkind => cases hkind
  | .citationFailed h => by
      refine .whole rfl fun name hlooks hrepeated => ?_
      cases hlooks with
      | citation hlabel =>
          rw [Scope.citation_repeated hnames hlabel hrepeated] at h
          cases h
          rfl
      | definition hkind => cases hkind
      | anchor hkind => cases hkind
  | .footnote h =>
      .whole rfl fun name hlooks hrepeated =>
        nomatch h.eq_of_repeated hnames hlooks hrepeated
  | .footnoteFailed h => by
      refine .whole rfl fun name hlooks hrepeated => ?_
      obtain rfl := Except.error.inj (h.eq_of_repeated hnames hlooks hrepeated)
      rfl
  | .imageId hanswer h => .whole rfl (h.refuses hnames hanswer rfl rfl)
  | .imagePath _ => by
      refine .whole rfl (Scope.refuses_of_noId _ _ fun name hlooks => ?_)
      cases hlooks with
      | definition hkind => cases hkind
      | anchor hkind => cases hkind
  | .linkId hcontent hanswer h =>
      .linkId (hcontent.rewritten hnames) (h.refuses hnames hanswer rfl rfl)
  | .linkPath _ => by
      refine .whole rfl (Scope.refuses_of_noId _ _ fun name hlooks => ?_)
      cases hlooks with
      | definition hkind => cases hkind
      | anchor hkind => cases hkind

theorem Spans.Yields.rewritten
    (hnames : s.Counts names)
    {before after : List Span} {problems : List Problem} :
    Spans.Yields s before after problems →
      Spans.Rewritten (s.Refuses names) before after
  | .nil => .nil
  | .cons h hrest => .cons (h.rewritten hnames) (hrest.rewritten hnames)

end

/-! ## The first pass, declaration by declaration -/

theorem Block.name?_of_invalid {block fallback : Block} {problem : Problem}
    (h : some block = some (.invalid fallback problem)) : block.name? = none := by
  obtain rfl := Option.some.inj h
  rfl

namespace Scope

/-- A declaration judged by whether its name is repeated: unusable if it is,
and otherwise not reported as repeated. -/
theorem judges_of (name : Name) {block : Block} {out : Option Block}
    (hname : ∀ other, block.name? = some other → other = name)
    (hrepeated : name.id ≠ "" → 2 ≤ names.count name →
      out = block.unusable (name.failure s.document).problem)
    (honly : ∀ fallback problem, out = some (.invalid fallback problem) →
      problem.kind = .duplicateIdentifier → 2 ≤ names.count name) :
    s.Judges names block out := by
  intro other hother hid
  obtain rfl := hname other hother
  refine ⟨hrepeated hid, fun hone fallback problem hout hkind => ?_⟩
  have htwo := honly fallback problem hout hkind
  omega

theorem isDuplicate_iff_of_length {α : Type} {ns : Namespace α} {id : String}
    {n : Nat} (h : (ns.values id).length = n) :
    ns.isDuplicate id = true ↔ 2 ≤ n := by
  rw [Namespace.isDuplicate_iff, h]

theorem ChecksAnchor.judges (hnames : s.Counts names) {id : Option String}
    {block out : Block} {problems : List Problem}
    (h : s.ChecksAnchor id block out problems)
    (hname : block.name? = id.map (Name.mk .anchor))
    (hinvalid : ∀ problem, block.unusable problem = some (.invalid block problem)) :
    s.Judges names block (some out) := by
  cases id with
  | none =>
      intro name hother
      rw [hname] at hother
      cases hother
  | some i =>
      have hdup := isDuplicate_iff_of_length (hnames ⟨.anchor, i⟩)
      refine judges_of ⟨.anchor, i⟩ (fun other hother => ?_) ?_ ?_
      · rw [hname] at hother
        exact (Option.some.inj hother).symm
      · intro _ htwo
        rw [hinvalid]
        cases h with
        | kept hunique => rw [hunique i rfl] at hdup; simp [htwo] at hdup
        | repeated hid _ => cases hid; rfl
      · intro fallback problem hout _
        cases h with
        | kept _ =>
            have hnone := Block.name?_of_invalid hout
            rw [hname] at hnone
            cases hnone
        | repeated hid hrepeated => cases hid; exact hdup.mp hrepeated

theorem FinishesCitation.judges (hnames : s.Counts names) {label : String}
    {id : Option String} {content : List Block} {out : Block}
    {problems : List Problem} (h : s.FinishesCitation label id content out problems) :
    s.Judges names (.citation label (citationId label id) content) (some out) := by
  have hdup := isDuplicate_iff_of_length (hnames ⟨.citation, label⟩)
  refine judges_of ⟨.citation, label⟩
    (fun other hother => (Option.some.inj hother).symm) ?_ ?_
  · intro hlabel htwo
    cases h with
    | nameless hempty => exact absurd hempty hlabel
    | kept _ hunique => rw [hunique] at hdup; simp [htwo] at hdup
    | repeated _ _ => rw [citationId, if_neg hlabel]; rfl
  · intro fallback problem hout hkind
    cases h with
    | nameless _ => cases hout; cases hkind
    | kept _ _ => cases hout
    | repeated _ hrepeated => exact hdup.mp hrepeated

/-- A footnote definition is repeated under its own name. -/
theorem repeatedFootnote?_eq (hnames : s.Counts names) {label : FootnoteLabel}
    {content : List Block} {name : Name}
    (h : (Block.footnoteDefinition label content).name? = some name) :
    s.repeatedFootnote? label
        = (if 2 ≤ names.count name then some name.id else none)
      ∧ name.failure s.document = .duplicateTarget name.id s.document := by
  cases label with
  | autonumber | autosymbol => cases h
  | numeric number =>
      cases h
      have hdup := isDuplicate_iff_of_length
        (hnames ⟨.numericFootnote, toString number⟩)
      exact ⟨by simp only [repeatedFootnote?, hdup], rfl⟩
  | labelled label =>
      cases h
      have hdup := isDuplicate_iff_of_length (hnames ⟨.labelledFootnote, label⟩)
      exact ⟨by simp only [repeatedFootnote?, hdup], rfl⟩

theorem FinishesFootnote.judges (hnames : s.Counts names) {place : Nat}
    {label : FootnoteLabel} {content : List Block} {out : Block}
    {problems : List Problem} (h : s.FinishesFootnote place label content out problems) :
    s.Judges names (.footnoteDefinition label content) (some out) := by
  intro name hname _
  obtain ⟨hkey, hfailure⟩ := repeatedFootnote?_eq hnames hname
  refine ⟨fun htwo => ?_, fun hone fallback problem hout hkind => ?_⟩
  · rw [if_pos htwo] at hkey
    cases h with
    | repeated hrepeated =>
        obtain rfl := Option.some.inj (hrepeated.symm.trans hkey)
        rw [hfailure]
        rfl
    | numbered hnone _ => rw [hkey] at hnone; cases hnone
    | nameless hnone _ => rw [hkey] at hnone; cases hnone
  · rw [if_neg (by omega)] at hkey
    cases h with
    | repeated hrepeated => rw [hkey] at hrepeated; cases hrepeated
    | numbered _ _ => cases hout
    | nameless _ _ => cases hout; cases hkind

theorem DropsAlias.judges (hnames : s.Counts names) {indirection : LinkAlias}
    {out : Option Block} {problems : List Problem}
    (h : s.DropsAlias indirection out problems) :
    s.Judges names (.linkAlias indirection) out := by
  have hdup := isDuplicate_iff_of_length (hnames ⟨.link, indirection.id⟩)
  refine judges_of ⟨.link, indirection.id⟩
    (fun other hother => (Option.some.inj hother).symm) ?_ ?_
  · intro _ htwo
    cases h with
    | repeated _ => rfl
    | looping hunique _ _ => rw [hunique] at hdup; simp [htwo] at hdup
    | dropped hunique _ _ => rw [hunique] at hdup; simp [htwo] at hdup
  · intro fallback problem hout hkind
    cases h with
    | repeated hrepeated => exact hdup.mp hrepeated
    | @looping failure _ _ hloop =>
        cases hout
        cases failure with
        | circularAlias _ => cases hkind
        | aliasChainTooLong _ => cases hkind
        | _ => cases hloop
    | dropped _ _ _ => cases hout

theorem DropsDefinition.judges (hnames : s.Counts names)
    {definition : LinkDefinition} {out : Option Block} {problems : List Problem}
    (h : s.DropsDefinition definition out problems) :
    s.Judges names (.linkDefinition definition) out := by
  obtain ⟨id, target, title⟩ := definition
  have hdup := isDuplicate_iff_of_length (hnames ⟨.link, id⟩)
  refine judges_of ⟨.link, id⟩ (fun other hother => ?_) ?_ ?_
  · simp only [Block.name?] at hother
    split at hother
    · cases hother
    · exact (Option.some.inj hother).symm
  · intro hid htwo
    cases h with
    | external htarget => cases htarget; rfl
    | repeated htarget _ _ => cases htarget; rfl
    | internal _ hunique =>
        rcases hunique with hempty | hunique
        · exact absurd hempty hid
        · rw [hunique] at hdup
          simp [htwo] at hdup
  · intro fallback problem hout _
    cases h with
    | repeated _ _ hrepeated => exact hdup.mp hrepeated
    | external _ => cases hout
    | internal _ _ => cases hout

end Scope

mutual

theorem Block.Yields.rewritten (hnames : s.Counts names) {before : Block}
    {after : Option Block} {problems : List Problem} :
    Block.Yields s before after problems → before.problems = [] →
      Block.Rewritten (s.Refuses names) (s.Judges names) before after
  | .paragraph h, _ => .paragraph (h.rewritten hnames)
  | .codeBlock, _ | .rule, _ | .verbatim, _ | .decoratedHeader, _ => .same rfl rfl
  | .header htext h, _ =>
      .header (htext.rewritten hnames) (h.judges hnames rfl fun _ => rfl)
  | .title htext h, _ =>
      .title (htext.rewritten hnames) (h.judges hnames rfl fun _ => rfl)
  | .sectionOf htext hcontent h, hclean => by
      simp at hclean
      exact .sectionOf (htext.rewritten hnames) (hcontent.rewritten hnames hclean.2)
        (h.judges hnames rfl fun _ => rfl)
  | .quoted h, hclean => .quoted (h.rewritten hnames (by simpa using hclean))
  | .anchor h, _ => .target rfl rfl (h.judges hnames rfl fun _ => rfl)
  | .linkDefinition h, _ => .target rfl rfl (h.judges hnames)
  | .linkAlias h, _ => .target rfl rfl (h.judges hnames)
  | .citation hcontent h, hclean =>
      .citation (hcontent.rewritten hnames (by simpa using hclean)) (h.judges hnames)
  | .footnoteDefinition hcontent h, hclean =>
      .footnoteDefinition (hcontent.rewritten hnames (by simpa using hclean))
        (h.judges hnames)
  | .footnote h, hclean => .footnote (h.rewritten hnames (by simpa using hclean))
  | .reference h, _ => .reference (h.rewritten hnames)
  | .invalid _, hclean => by simp at hclean

/-- A pass over blocks without invalid nodes rewrites them from the inside
out. -/
theorem Blocks.Yields.rewritten (hnames : s.Counts names) {before after : List Block}
    {problems : List Problem} :
    Blocks.Yields s before after problems → Blocks.problems before = [] →
      Blocks.Rewritten (s.Refuses names) (s.Judges names) before after
  | .nil, _ => .nil
  | .cons h hrest, hclean => by
      simp at hclean
      exact .cons (h.rewritten hnames hclean.1) (hrest.rewritten hnames hclean.2)

end

end

/-! ## Documents -/

namespace Document

/-- In a document without invalid nodes the first pass makes unusable what
declares a repeated name or refers to one, and nothing else for that
reason. -/
theorem repeated_unusable (d : Document) (h : Blocks.problems d.content = []) :
    (∀ name : Name,
        (name.failure d.path).problem.kind = .duplicateIdentifier)
      ∧ Blocks.Rewritten
          (d.firstScope.Refuses (Blocks.names d.outlined.content))
          (d.firstScope.Judges (Blocks.names d.outlined.content))
          d.outlined.content d.settled.content := by
  have hclean : Blocks.problems d.outlined.content = [] :=
    (Blocks.problems_buildOutline _ _).trans h
  have hnames : d.firstScope.Counts (Blocks.names d.outlined.content) :=
    DocumentIndex.occurrences_build hclean
  obtain ⟨_, hyields, -⟩ := d.yields_settled
  exact ⟨fun name => name.kind_failure d.path, hyields.rewritten hnames hclean⟩

/-- A footnote in a footnote of the same label, a citation declared twice,
and definitions of one id as an address, a path and an alias. -/
def doubled : Document :=
  { path := ⟨["a.md"], none⟩
    config := .initial
    content :=
      [.footnoteDefinition (.labelled "ebb")
          [.paragraph [.reference (.footnote (.labelled "ebb")) "[^ebb]"],
            .footnoteDefinition (.labelled "ebb") [.anchor "buoy"]],
        .citation "log" none [.citation "log" none []],
        .linkDefinition ⟨"pier", .external "http://pier", none⟩,
        .linkDefinition ⟨"pier", .internal (.absolute ⟨["pier.md"], none⟩), none⟩,
        .linkAlias ⟨"pier", "buoy"⟩,
        .linkAlias ⟨"quay", "pier"⟩,
        .paragraph
          [.reference (.linkId [.reference (.citation "log") "[@log]"] "quay")
              "[[@log]][quay]",
            .reference (.imageId "" "buoy") "![][buoy]"]] }

theorem repeated_unusable_doubled :
    doubled.settled.content
        = [.invalid
            (.footnoteDefinition (.labelled "ebb")
              [.paragraph
                [.invalid (.reference (.footnote (.labelled "ebb")) "[^ebb]")
                  (Failure.duplicateTarget "ebb" ⟨["a.md"], none⟩).problem],
                .invalid (.footnoteDefinition (.labelled "ebb") [.anchor "buoy"])
                  (Failure.duplicateTarget "ebb" ⟨["a.md"], none⟩).problem])
            (Failure.duplicateTarget "ebb" ⟨["a.md"], none⟩).problem,
          .invalid
            (.citation "log" (some "__cit-log")
              [.invalid (.citation "log" (some "__cit-log") [])
                (Failure.duplicateTarget "log" ⟨["a.md"], none⟩).problem])
            (Failure.duplicateTarget "log" ⟨["a.md"], none⟩).problem,
          .invalid
            (.linkDefinition
              ⟨"pier", .internal (.absolute ⟨["pier.md"], none⟩), none⟩)
            (Failure.duplicateDefinition "pier" ⟨["a.md"], none⟩).problem,
          .invalid (.linkAlias ⟨"pier", "buoy"⟩)
            (Failure.duplicateDefinition "pier" ⟨["a.md"], none⟩).problem,
          .paragraph
            [.invalid
              (.reference
                (.linkId
                  [.invalid (.reference (.citation "log") "[@log]")
                    (Failure.duplicateTarget "log" ⟨["a.md"], none⟩).problem]
                  "quay")
                "[[@log]][quay]")
              (Failure.duplicateDefinition "pier" ⟨["a.md"], none⟩).problem,
              .image "" (.internal ⟨⟨["a.md"], some "buoy"⟩, none,
                ⟨0, [], some "buoy"⟩⟩) none]]
      ∧ Blocks.Rewritten
          (doubled.firstScope.Refuses (Blocks.names doubled.outlined.content))
          (doubled.firstScope.Judges (Blocks.names doubled.outlined.content))
          doubled.outlined.content doubled.settled.content :=
  ⟨rfl, (repeated_unusable doubled rfl).2⟩

end Document

end Crosslink
