import Crosslink.Proofs.Completion
import Crosslink.Proofs.Pass

/-!
# A pass without the tree and one with it, in step

`InStep x y Q` is the contract of two steps, `x` of a pass that does not know
the tree and `y` of the same pass with the tree known. Started with equal
counts and with memories of which the second is the first one completed
(`Scope.Parallel`), they end so, and `Q` holds of their results. What does
not touch counts and memory is in step already (`InStep.of_quiet`); the
steps that do give the same footnote and the same anonymous definition on
both sides, and the completed outcome of every id (`inStep_lookUpId`).
-/

namespace Crosslink

namespace Scope

variable {s : Scope} {tree : TreeIndex} {α β : Type}

/-! ## Contracts -/

/-- The second pass has met the same nodes and remembers the completed
outcomes. -/
structure Parallel (s : Scope) (tree : TreeIndex) (st st' : PassState) : Prop where
  sound : s.CacheSound st.cache
  sound' : (s.withTree tree).CacheSound st'.cache
  cache : st'.cache = s.completeCache tree st.cache
  anonymous : st'.anonymousNext = st.anonymousNext
  footnotes : st'.footnoteNext = st.footnoteNext
  cursor : st'.cursor = st.cursor

theorem parallel_start (s : Scope) (tree : TreeIndex) : s.Parallel tree {} {} :=
  ⟨cacheSound_nil _, cacheSound_nil _, rfl, rfl, rfl, rfl⟩

/-- What was reported so far does not matter. -/
theorem Parallel.reported {st st' : PassState} (h : s.Parallel tree st st')
    (first second : List Diagnostic) :
    s.Parallel tree { st with diagnostics := first }
      { st' with diagnostics := second } :=
  ⟨h.sound, h.sound', h.cache, h.anonymous, h.footnotes, h.cursor⟩

def InStep (s : Scope) (tree : TreeIndex) (x y : Pass α) (Q : α → α → Prop) : Prop :=
  ∀ st st' : PassState, s.Parallel tree st st' →
    s.Parallel tree (x st).2 (y st').2 ∧ Q (x st).1 (y st').1

theorem InStep.pure {a b : α} {Q : α → α → Prop} (h : Q a b) :
    s.InStep tree (Pure.pure a) (Pure.pure b) Q :=
  fun _ _ hst => ⟨hst, h⟩

theorem InStep.bind {x y : Pass α} {f g : α → Pass β} {P : α → α → Prop}
    {Q : β → β → Prop} (hx : s.InStep tree x y P)
    (hf : ∀ a b, P a b → s.InStep tree (f a) (g b) Q) :
    s.InStep tree (x >>= f) (y >>= g) Q := by
  intro st st' hst
  obtain ⟨hnext, hP⟩ := hx st st' hst
  exact hf _ _ hP _ _ hnext

theorem InStep.map {x y : Pass α} {f g : α → β} {P : α → α → Prop}
    {Q : β → β → Prop} (hx : s.InStep tree x y P)
    (h : ∀ a b, P a b → Q (f a) (g b)) :
    s.InStep tree (x >>= fun a => Pure.pure (f a)) (y >>= fun b => Pure.pure (g b))
      Q :=
  hx.bind fun a b hab => .pure (h a b hab)

/-! ## Steps that only report -/

theorem InStep.of_quiet {x y : Pass α} {P P' : α → List Problem → Prop}
    {Q : α → α → Prop} (hx : Quiet x) (hy : Quiet y) (hP : s.Ensures x P)
    (hP' : (s.withTree tree).Ensures y P')
    (h : ∀ a b first second, P a first → P' b second → Q a b) :
    s.InStep tree x y Q := by
  intro st st' hst
  obtain ⟨_, hleft⟩ := hx st
  obtain ⟨_, hright⟩ := hy st'
  obtain ⟨-, _, -, ha⟩ := hP st hst.sound
  obtain ⟨-, _, -, hb⟩ := hP' st' hst.sound'
  rw [hleft, hright]
  exact ⟨hst.reported _ _, h _ _ _ _ ha hb⟩

theorem inStep_invalidBlock {fallback fallback' : Block} {failure : Failure}
    {Q : Block → Block → Prop}
    (h : Q (.invalid fallback failure.problem) (.invalid fallback' failure.problem)) :
    s.InStep tree (s.invalidBlock fallback failure)
      ((s.withTree tree).invalidBlock fallback' failure) Q :=
  fun _ _ hst => ⟨hst.reported _ _, h⟩

theorem inStep_invalidSpan {fallback fallback' : Span} {failure : Failure}
    {Q : Span → Span → Prop}
    (h : Q (.invalid fallback failure.problem) (.invalid fallback' failure.problem)) :
    s.InStep tree (s.invalidSpan fallback failure)
      ((s.withTree tree).invalidSpan fallback' failure) Q :=
  fun _ _ hst => ⟨hst.reported _ _, h⟩

/-! ## Steps that count or remember -/

theorem inStep_lookUpId (hnone : s.tree = none) (id : String) :
    s.InStep tree (s.lookUpId id) ((s.withTree tree).lookUpId id) fun a b =>
      s.Answers id a ∧ b = s.complete tree a := by
  intro st st' hst
  have hlook := lookUp_withTree hnone tree id st.cache
  have hsound := cacheSound_lookUp hst.sound' id
  rw [← hst.cache] at hlook
  rw [hlook] at hsound
  refine ⟨⟨cacheSound_lookUp hst.sound id, ?_, ?_, hst.anonymous, hst.footnotes,
    hst.cursor⟩, answers_lookUp hst.sound id, ?_⟩
  · show (s.withTree tree).CacheSound ((s.withTree tree).lookUp id st'.cache).2
    rw [hlook]
    exact hsound
  · show ((s.withTree tree).lookUp id st'.cache).2 = _
    rw [hlook]
    rfl
  · show ((s.withTree tree).lookUp id st'.cache).1 = _
    rw [hlook]
    rfl

theorem inStep_nextAnonymous :
    s.InStep tree s.nextAnonymous (s.withTree tree).nextAnonymous fun a b =>
      s.AnswersReference "" a ∧ b = s.complete tree a := by
  intro st st' hst
  obtain ⟨-, _, -, hanswer, -⟩ := ensures_nextAnonymous (s := s) st hst.sound
  refine ⟨⟨hst.sound, hst.sound', hst.cache, ?_, hst.footnotes, hst.cursor⟩,
    hanswer, ?_⟩
  · exact congrArg (· + 1) hst.anonymous
  · unfold nextAnonymous
    simp only [index_withTree, hst.anonymous]
    cases s.index.anonymous[st.anonymousNext]? with
    | none => rfl
    | some defined => rfl

theorem inStep_nextFootnote :
    s.InStep tree nextFootnote nextFootnote fun a b => b = a := by
  intro st st' hst
  refine ⟨⟨hst.sound, hst.sound', hst.cache, hst.anonymous, ?_, hst.cursor⟩,
    hst.footnotes⟩
  exact congrArg (· + 1) hst.footnotes

theorem inStep_footnoteFor (label : FootnoteLabel) :
    s.InStep tree (s.footnoteFor label) ((s.withTree tree).footnoteFor label)
      fun a b => b = a := by
  cases label with
  | numeric number => exact .pure rfl
  | labelled label => exact .pure rfl
  | autonumber =>
      intro st st' hst
      simp only [footnoteFor, FootnoteCursor.nextAutonumber, index_withTree, hst.cursor]
      exact ⟨⟨hst.sound, hst.sound', hst.cache, hst.anonymous, hst.footnotes, rfl⟩,
        trivial⟩
  | autosymbol =>
      intro st st' hst
      simp only [footnoteFor, FootnoteCursor.nextAutosymbol, index_withTree, hst.cursor]
      exact ⟨⟨hst.sound, hst.sound', hst.cache, hst.anonymous, hst.footnotes, rfl⟩,
        trivial⟩

end Scope

end Crosslink
