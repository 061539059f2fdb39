import Crosslink.Proofs.Completion
import Crosslink.Proofs.Nesting
import Crosslink.Proofs.Precedence
import Crosslink.Proofs.Reporting

/-!
# What the second pass makes of the first

`Blocks.Matches s whole out` compares two results of resolution: they are the
same but for references by id that failed, where the second may hold the id
at the end of a chain of aliases of `s`. What matches has the same problems
(`Blocks.Matches.problems_eq`). `Meets` says of something that the first pass
over a document left that whatever the second pass makes of it matches a
given result; where that result comes from a pass that knows the tree from
the start, this is shown here for single references
(`Document.meets_settlesPath`, `Document.meets_settlesId`).
-/

namespace Crosslink

/-! ## Equal but for the ids of aliases -/

section

variable (s : Scope)

mutual

/-- The same span, except that an invalid reference by id may hold the id at
the end of its chain of aliases. -/
inductive Span.Matches : Span → Span → Prop
  | same {span : Span} : Span.Matches span span
  | emphasized {content content' : List Span} (h : Spans.Matches content content') :
      Span.Matches (.emphasized content) (.emphasized content')
  | strong {content content' : List Span} (h : Spans.Matches content content') :
      Span.Matches (.strong content) (.strong content')
  | link {content content' : List Span} {target : Target} {title : Option String}
      (h : Spans.Matches content content') :
      Span.Matches (.link content target title) (.link content' target title)
  | viaAlias {shown : Appearance} {n : Nat} {id last source : String}
      {problem : Problem} (hlead : s.Leads (n + 1) id last) :
      Span.Matches (.invalid (shown.byId id source) problem)
        (.invalid (shown.byId last source) problem)

inductive Spans.Matches : List Span → List Span → Prop
  | nil : Spans.Matches [] []
  | cons {span span' : Span} {spans spans' : List Span} (h : Span.Matches span span')
      (hrest : Spans.Matches spans spans') :
      Spans.Matches (span :: spans) (span' :: spans')

end

mutual

/-- The same block, except that invalid references by id in it may hold the
ids at the ends of their chains of aliases. -/
inductive Block.Matches : Block → Block → Prop
  | same {block : Block} : Block.Matches block block
  | paragraph {content content' : List Span} (h : Spans.Matches s content content') :
      Block.Matches (.paragraph content) (.paragraph content')
  | header {header : Header} {text text' : List Span}
      (h : Spans.Matches s text text') :
      Block.Matches (.header { header with content := text })
        (.header { header with content := text' })
  | title {title : Title} {text text' : List Span} (h : Spans.Matches s text text') :
      Block.Matches (.title { title with content := text })
        (.title { title with content := text' })
  | sectionOf {header : Header} {text text' : List Span}
      {content content' : List Block} (htext : Spans.Matches s text text')
      (h : Blocks.Matches content content') :
      Block.Matches (.sectionOf { header with content := text } content)
        (.sectionOf { header with content := text' } content')
  | quoted {content content' : List Block} (h : Blocks.Matches content content') :
      Block.Matches (.quoted content) (.quoted content')
  | citation {label : String} {id : Option String} {content content' : List Block}
      (h : Blocks.Matches content content') :
      Block.Matches (.citation label id content) (.citation label id content')
  | footnoteDefinition {label : FootnoteLabel} {content content' : List Block}
      (h : Blocks.Matches content content') :
      Block.Matches (.footnoteDefinition label content)
        (.footnoteDefinition label content')
  | footnote {id label : String} {content content' : List Block}
      (h : Blocks.Matches content content') :
      Block.Matches (.footnote id label content) (.footnote id label content')
  | reference {span span' : Span} (h : Span.Matches s span span') :
      Block.Matches (Scope.blockOfSpan span) (Scope.blockOfSpan span')
  | invalid {fallback fallback' : Block} {problem : Problem}
      (h : Block.Matches fallback fallback') :
      Block.Matches (.invalid fallback problem) (.invalid fallback' problem)

inductive Blocks.Matches : List Block → List Block → Prop
  | nil : Blocks.Matches [] []
  | cons {block block' : Block} {blocks blocks' : List Block}
      (h : Block.Matches block block') (hrest : Blocks.Matches blocks blocks') :
      Blocks.Matches (block :: blocks) (block' :: blocks')

end

end

section

variable {s : Scope}

mutual

theorem Span.Matches.problems_eq {span span' : Span} :
    Span.Matches s span span' → span.problems = span'.problems
  | .same => rfl
  | .emphasized h => by simpa using h.problems_eq
  | .strong h => by simpa using h.problems_eq
  | .link h => by simpa using h.problems_eq
  | @Span.Matches.viaAlias _ shown _ _ _ _ _ _ => by
      cases shown <;> simp [Appearance.byId]

theorem Spans.Matches.problems_eq {spans spans' : List Span} :
    Spans.Matches s spans spans' → Spans.problems spans = Spans.problems spans'
  | .nil => rfl
  | .cons h hrest => by
      rw [Spans.problems, Spans.collect_cons, Spans.problems, Spans.collect_cons]
      simpa [h.problems_eq] using hrest.problems_eq

end

mutual

theorem Block.Matches.problems_eq {block block' : Block} :
    Block.Matches s block block' → block.problems = block'.problems
  | .same => rfl
  | .paragraph h => by simpa using h.problems_eq
  | .header h => by simpa using h.problems_eq
  | .title h => by simpa using h.problems_eq
  | .sectionOf htext h => by simp [htext.problems_eq, h.problems_eq]
  | .quoted h => by simpa using h.problems_eq
  | .citation h => by simpa using h.problems_eq
  | .footnoteDefinition h => by simpa using h.problems_eq
  | .footnote h => by simpa using h.problems_eq
  | .reference h => by simpa using h.problems_eq
  | .invalid h => by simpa using h.problems_eq

/-- What matches has the same problems in the same order. -/
theorem Blocks.Matches.problems_eq {blocks blocks' : List Block} :
    Blocks.Matches s blocks blocks' →
      Blocks.problems blocks = Blocks.problems blocks'
  | .nil => rfl
  | .cons h hrest => by
      rw [Blocks.problems, Blocks.collect_cons, Blocks.problems, Blocks.collect_cons]
      simpa [h.problems_eq] using hrest.problems_eq

end

theorem Blocks.Matches.append {first first' second second' : List Block}
    (h : Blocks.Matches s first first') (h' : Blocks.Matches s second second') :
    Blocks.Matches s (first ++ second) (first' ++ second') := by
  induction first generalizing first' with
  | nil => cases h; exact h'
  | cons block first ih =>
      cases h with
      | cons hblock hrest => exact .cons hblock (ih hrest)

end

/-! ## The second pass over what the first one left -/

theorem Scope.Rewrites.eq_of_plain {s : Scope} {shown shown' : Appearance}
    (h : s.Rewrites shown shown') (hplain : shown.Plain) : shown' = shown := by
  cases h with
  | link h => rw [(h.eq_of_plain hplain.2).1]
  | image => rfl

section

variable (d : Document) (tree : TreeIndex)

/-- Whatever the second pass makes of `middle` matches `whole`. -/
def Span.Meets (middle whole : Span) : Prop :=
  ∀ out problems, Span.Yields (d.secondScope tree) middle out problems →
    Span.Matches d.firstScope whole out

def Spans.Meets (middle whole : List Span) : Prop :=
  ∀ outs problems, Spans.Yields (d.secondScope tree) middle outs problems →
    Spans.Matches d.firstScope whole outs

def Blocks.Meets (middle whole : List Block) : Prop :=
  ∀ outs problems, Blocks.Yields (d.secondScope tree) middle outs problems →
    Blocks.Matches d.firstScope whole outs

end

/-! ## References -/

namespace Scope

variable {s : Scope}

theorem AnswersReference.of_deferred {id last : String}
    (h : s.AnswersReference id (.deferred last)) :
    id ≠ "" ∧ (∃ n, s.Leads n id last) ∧ s.Foreign last := by
  unfold AnswersReference at h
  split at h
  · rcases h with ⟨defined, -, heq⟩ | heq
    · unfold DefinedTarget.destination at heq
      split at heq <;> cases heq
    · cases heq
  · rename_i hid
    rcases h with ⟨n, last', hlead, heq⟩ | ⟨-, failure, heq, -⟩
    · have hfinds := finds_outcomeOf s last'
      rw [← heq] at hfinds
      cases hfinds with
      | deferred hforeign _ => exact ⟨hid, ⟨n, hlead⟩, hforeign⟩
    · cases heq

end Scope

section

variable {d : Document} {tree : TreeIndex} {shown : Appearance} {source : String}

theorem Span.meets_of_isLeaf {span : Span} (h : span.isLeaf = true) :
    Span.Meets d tree span span := by
  intro out problems hout
  cases hout with
  | emphasized _ => cases h
  | strong _ => cases h
  | reference _ => cases h
  | link _ => cases h
  | _ => exact .same

theorem Appearance.meets_toSpan (hshown : shown.Plain) (target : Target)
    (title : Option String) :
    Span.Meets d tree (shown.toSpan target title) (shown.toSpan target title) := by
  intro out problems hout
  obtain ⟨shown', hrewrites, rfl⟩ := hout.of_toSpan
  rw [hrewrites.eq_of_plain hshown]
  exact .same

namespace Document

/-- Where a path leads depends on the tree, not on the index. -/
theorem resolvePath_secondScope (path : WrittenPath) :
    (d.secondScope tree).resolvePath path
      = (d.firstScope.withTree tree).resolvePath path := by
  cases path <;> rfl

theorem resolvePath_withTree (tree : TreeIndex) {path : WrittenPath}
    (h : d.firstScope.resolvePath path ≠ .deferred) :
    (d.firstScope.withTree tree).resolvePath path = d.firstScope.resolvePath path := by
  have hlocate : (d.firstScope.withTree tree).locate path = d.firstScope.locate path := by
    cases path <;> rfl
  cases hplace : d.firstScope.locate path with
  | aboveRoot outside => rw [Scope.resolvePath, Scope.resolvePath, hlocate, hplace]
  | inside inner =>
      refine absurd ?_ h
      rw [Scope.resolvePath, hplace]
      rfl

theorem settlesPath_unique {path : WrittenPath} {title : Option String}
    {whole out : Span} {problems problems' : List Problem}
    (h : (d.firstScope.withTree tree).SettlesPath shown path title source whole
      problems)
    (h' : (d.secondScope tree).SettlesPath shown path title source out problems') :
    whole = out := by
  cases h with
  | resolved hpath =>
      rw [← resolvePath_secondScope] at hpath
      cases h' with
      | resolved hpath' => rw [hpath] at hpath'; cases hpath'; rfl
      | deferred hpath' => rw [hpath] at hpath'; cases hpath'
      | failed hpath' => rw [hpath] at hpath'; cases hpath'
  | deferred hpath => exact absurd hpath (Scope.resolvePath_ne_deferred rfl path)
  | failed hpath =>
      rw [← resolvePath_secondScope] at hpath
      cases h' with
      | resolved hpath' => rw [hpath] at hpath'; cases hpath'
      | deferred hpath' => rw [hpath] at hpath'; cases hpath'
      | failed hpath' => rw [hpath] at hpath'; cases hpath'; rfl

theorem meets_settlesPath (hshown : shown.Plain) {path : WrittenPath}
    {title : Option String} {middle whole : Span} {first problems : List Problem}
    (h : d.firstScope.SettlesPath shown path title source middle first)
    (h' : (d.firstScope.withTree tree).SettlesPath shown path title source whole
      problems) :
    Span.Meets d tree middle whole := by
  by_cases hlater : d.firstScope.resolvePath path = .deferred
  · cases h with
    | deferred _ =>
        intro out second hout
        rw [settlesPath_unique h' hout.of_byPath]
        exact .same
    | resolved hpath => rw [hlater] at hpath; cases hpath
    | failed hpath => rw [hlater] at hpath; cases hpath
  · have hsame := resolvePath_withTree tree hlater
    cases h with
    | deferred hpath => exact absurd hpath hlater
    | resolved hpath =>
        rw [hpath] at hsame
        cases h' with
        | resolved hpath' =>
            rw [hsame] at hpath'
            cases hpath'
            exact shown.meets_toSpan hshown _ _
        | deferred hpath' => rw [hsame] at hpath'; cases hpath'
        | failed hpath' => rw [hsame] at hpath'; cases hpath'
    | failed hpath =>
        rw [hpath] at hsame
        cases h' with
        | resolved hpath' => rw [hsame] at hpath'; cases hpath'
        | deferred hpath' => rw [hsame] at hpath'; cases hpath'
        | failed hpath' =>
            rw [hsame] at hpath'
            cases hpath'
            exact Span.meets_of_isLeaf rfl

/-- A name that the document does not declare is searched for in the tree. -/
theorem answers_secondScope (hnames : d.NamesAliases) {id last : String}
    {outcome : IdOutcome} (h : d.firstScope.AnswersReference id (.deferred last))
    (h' : (d.secondScope tree).AnswersReference last outcome) :
    outcome = d.firstScope.searchTree tree last := by
  obtain ⟨hid, ⟨n, hlead⟩, hforeign⟩ := h.of_deferred
  have hnone := hlead.last_ne_alias
  have hdef := d.definition_secondScope tree hnone hforeign
  have hanchor := (d.secondScope_anchors tree).entry?_eq_none hforeign.anchor
  rw [Scope.AnswersReference, if_neg (hnames.last_ne_empty hlead hid)] at h'
  rw [h'.of_aliasTarget?_eq_none (d.aliasTarget?_secondScope tree hnone hforeign),
    Scope.outcomeOf, hdef, Scope.searchAnchors, hanchor]
  rfl

/-- The two searches of one id settle a reference alike, but for the id that
an invalid one holds. -/
theorem matches_settlesId {n : Nat} {id last : String} {outcome : IdOutcome}
    {whole out : Span} {problems problems' : List Problem}
    (hlead : d.firstScope.Leads n id last)
    (h : (d.firstScope.withTree tree).SettlesId shown id source outcome whole problems)
    (h' : (d.secondScope tree).SettlesId shown last source outcome out problems') :
    Span.Matches d.firstScope whole out := by
  have hinvalid : ∀ problem : Problem, Span.Matches d.firstScope
      (.invalid (shown.byId id source) problem)
      (.invalid (shown.byId last source) problem) := by
    intro problem
    cases n with
    | zero => cases hlead; exact .same
    | succ n => exact .viaAlias hlead
  cases h with
  | external => cases h'; exact .same
  | target => cases h'; exact .same
  | path hpath =>
      cases h' with
      | path hpath' =>
          rw [settlesPath_unique hpath hpath']
          exact .same
  | deferred => cases h'; exact .same
  | missing => cases h'; exact hinvalid _
  | failed => cases h'; exact hinvalid _

theorem meets_settlesId (hnames : d.NamesAliases) (hshown : shown.Plain) {id : String}
    {outcome : IdOutcome} {middle whole : Span} {first problems : List Problem}
    (hanswer : d.firstScope.AnswersReference id outcome)
    (h : d.firstScope.SettlesId shown id source outcome middle first)
    (h' : (d.firstScope.withTree tree).SettlesId shown id source
      (d.firstScope.complete tree outcome) whole problems) :
    Span.Meets d tree middle whole := by
  cases h with
  | external => cases h'; exact shown.meets_toSpan hshown _ _
  | target => cases h'; exact shown.meets_toSpan hshown _ _
  | path hpath =>
      cases h' with
      | path hpath' => exact meets_settlesPath hshown hpath hpath'
  | deferred =>
      intro out second hout
      obtain ⟨shown', outcome, _, hrewrites, hanswer', hsettles⟩ := hout.of_byId
      obtain rfl := hrewrites.eq_of_plain hshown
      obtain rfl := answers_secondScope hnames hanswer hanswer'
      obtain ⟨-, ⟨n, hlead⟩, -⟩ := hanswer.of_deferred
      exact matches_settlesId hlead h' hsettles
  | missing => cases h'; exact Span.meets_of_isLeaf rfl
  | failed => cases h'; exact Span.meets_of_isLeaf rfl

end Document

end

/-! ## The second pass over blocks that the first one left -/

section

variable {d : Document} {tree : TreeIndex}

theorem Blocks.meets_of {middle whole : Block}
    (h : ∀ out problems, Block.Yields (d.secondScope tree) middle out problems →
      ∃ out', out = some out' ∧ Block.Matches d.firstScope whole out') :
    Blocks.Meets d tree [middle] [whole] := by
  intro outs problems houts
  obtain ⟨out, rfl, hblock⟩ := houts.singleton
  obtain ⟨out', rfl, hmatches⟩ := h _ _ hblock
  exact .cons hmatches .nil

theorem Blocks.meets_invalid {middle whole : Block} {problem : Problem}
    (h : ∀ out problems, Block.YieldsInside (d.secondScope tree) middle out problems →
      Block.Matches d.firstScope whole out) :
    Blocks.Meets d tree [.invalid middle problem] [.invalid whole problem] := by
  intro outs problems houts
  obtain ⟨out, rfl, hinside⟩ := houts.of_invalid
  exact .cons (.invalid (h _ _ hinside)) .nil

theorem Blocks.meets_nil : Blocks.Meets d tree [] [] := by
  intro outs problems houts
  cases houts
  exact .nil

theorem Blocks.Meets.append {middle middle' whole whole' : List Block}
    (h : Blocks.Meets d tree middle whole) (h' : Blocks.Meets d tree middle' whole') :
    Blocks.Meets d tree (middle ++ middle') (whole ++ whole') := by
  intro outs problems houts
  obtain ⟨_, _, _, _, rfl, hfirst, hsecond⟩ := houts.append
  exact (h _ _ hfirst).append (h' _ _ hsecond)

theorem Blocks.meets_sealed {block : Block} {problem : Problem}
    (h : block.isSealed = true) :
    Blocks.Meets d tree [.invalid block problem] [.invalid block problem] := by
  refine Blocks.meets_invalid fun out problems hinside => ?_
  obtain ⟨rfl, -⟩ := hinside.of_isSealed h
  exact .same

end

end Crosslink
