import Crosslink.Proofs.Yields

/-!
# Every pass follows the rules

`Ensures x Q` is the contract of a step of a pass: started with sound
memory it adds to it by look-ups only, so that it stays sound, it only
appends to the diagnostics, and its result together with what it appended
satisfies `Q`. Contracts compose
(`Ensures.bind`), each small step has one, and by recursion over the nodes
so has the whole pass: it makes of every node what `Crosslink.Proofs.Yields`
allows (`ensures_resolveBlocks`, `yields_run`).
-/

namespace Crosslink

namespace Scope

variable {s : Scope} {α β : Type}

/-! ## Contracts -/

/-- The step adds to its memory by look-ups only, and its result and the
problems it reports satisfy `Q`. -/
def Ensures (s : Scope) (x : Pass α) (Q : α → List Problem → Prop) : Prop :=
  ∀ st : PassState, s.CacheSound st.cache →
    (∃ ids, (x st).2.cache = s.afterLookUps st.cache ids)
      ∧ ∃ problems : List Problem,
        (x st).2.diagnostics
            = st.diagnostics ++ problems.map (Diagnostic.mk s.document)
          ∧ Q (x st).1 problems

theorem Ensures.pure {a : α} {Q : α → List Problem → Prop} (h : Q a []) :
    s.Ensures (Pure.pure a) Q := by
  intro st _
  exact ⟨⟨[], rfl⟩, [], (List.append_nil _).symm, h⟩

theorem Ensures.bind {x : Pass α} {f : α → Pass β}
    {P : α → List Problem → Prop} {Q : β → List Problem → Prop}
    (hx : s.Ensures x P)
    (hf : ∀ a first, P a first →
      s.Ensures (f a) fun b rest => Q b (first ++ rest)) :
    s.Ensures (x >>= f) Q := by
  intro st hst
  obtain ⟨⟨ids, hids⟩, first, hfirst, hP⟩ := hx st hst
  have hsound : s.CacheSound (x st).2.cache := by
    rw [hids]
    exact cacheSound_afterLookUps hst ids
  obtain ⟨⟨ids', hids'⟩, rest, hrest, hQ⟩ := hf _ first hP (x st).2 hsound
  refine ⟨⟨ids ++ ids', ?_⟩, first ++ rest, ?_, hQ⟩
  · rw [afterLookUps_append, ← hids]
    exact hids'
  · show (f (x st).1 (x st).2).2.diagnostics = _
    rw [hrest, hfirst, List.map_append, List.append_assoc]

theorem Ensures.mono {x : Pass α} {P Q : α → List Problem → Prop}
    (hx : s.Ensures x P) (h : ∀ a problems, P a problems → Q a problems) :
    s.Ensures x Q := by
  intro st hst
  obtain ⟨hst', problems, hproblems, hP⟩ := hx st hst
  exact ⟨hst', problems, hproblems, h _ _ hP⟩

/-- A step followed by wrapping up its result. -/
theorem Ensures.map {x : Pass α} {f : α → β} {P : α → List Problem → Prop}
    {Q : β → List Problem → Prop} (hx : s.Ensures x P)
    (h : ∀ a problems, P a problems → Q (f a) problems) :
    s.Ensures (x >>= fun a => Pure.pure (f a)) Q :=
  hx.bind fun a first ha => .pure (by rw [List.append_nil]; exact h a first ha)

/-! ## Small steps -/

theorem ensures_invalidSpan {fallback : Span} {failure : Failure}
    {Q : Span → List Problem → Prop}
    (h : Q (.invalid fallback failure.problem) [failure.problem]) :
    s.Ensures (s.invalidSpan fallback failure) Q := by
  intro st _
  exact ⟨⟨[], rfl⟩, [failure.problem], rfl, h⟩

theorem ensures_invalidBlock {fallback : Block} {failure : Failure}
    {Q : Block → List Problem → Prop}
    (h : Q (.invalid fallback failure.problem) [failure.problem]) :
    s.Ensures (s.invalidBlock fallback failure) Q := by
  intro st _
  exact ⟨⟨[], rfl⟩, [failure.problem], rfl, h⟩

theorem ensures_someInvalid {fallback : Block} {failure : Failure}
    {Q : Option Block → List Problem → Prop}
    (h : Q (some (.invalid fallback failure.problem)) [failure.problem]) :
    s.Ensures (do return some (← s.invalidBlock fallback failure)) Q := by
  intro st _
  exact ⟨⟨[], rfl⟩, [failure.problem], rfl, h⟩

theorem ensures_lookUpId (id : String) :
    s.Ensures (s.lookUpId id) fun outcome problems =>
      s.Answers id outcome ∧ problems = [] := by
  intro st hst
  exact ⟨⟨[id], rfl⟩, [], (List.append_nil _).symm, answers_lookUp hst id, rfl⟩

theorem ensures_nextAnonymous :
    s.Ensures s.nextAnonymous fun outcome problems =>
      s.AnswersReference "" outcome ∧ problems = [] := by
  intro st _
  refine ⟨⟨[], rfl⟩, [], (List.append_nil _).symm, ?_, rfl⟩
  rw [AnswersReference, if_pos rfl]
  unfold nextAnonymous
  cases hat : s.index.anonymous[st.anonymousNext]? with
  | none => exact Or.inr rfl
  | some defined => exact Or.inl ⟨defined, List.mem_of_getElem? hat, rfl⟩

theorem ensures_nextFootnote :
    s.Ensures nextFootnote fun _ problems => problems = [] := by
  intro st _
  exact ⟨⟨[], rfl⟩, [], (List.append_nil _).symm, rfl⟩

theorem ensures_settlePath (shown : Appearance) (path : WrittenPath)
    (title : Option String) (source : String) :
    s.Ensures (s.settlePath shown path title source)
      (s.SettlesPath shown path title source) := by
  unfold settlePath
  split
  · rename_i target hpath
    exact .pure (.resolved hpath)
  · rename_i hpath
    exact .pure (.deferred hpath)
  · rename_i failure hpath
    exact ensures_invalidSpan (.failed hpath)

theorem ensures_settleId (shown : Appearance) (id source : String)
    (outcome : IdOutcome) :
    s.Ensures (s.settleId shown id source outcome)
      (s.SettlesId shown id source outcome) := by
  cases outcome with
  | found destination =>
      cases destination with
      | external url title => exact .pure .external
      | target target => exact .pure .target
      | path path title =>
          exact (ensures_settlePath shown path title source).mono
            fun out problems h => .path h
  | deferred last => exact .pure .deferred
  | missing last => exact ensures_invalidSpan .missing
  | failed failure => exact ensures_invalidSpan .failed

theorem ensures_resolveId (shown : Appearance) (id source : String) :
    s.Ensures (s.resolveId shown id source) fun out problems =>
      ∃ outcome, s.AnswersReference id outcome
        ∧ s.SettlesId shown id source outcome out problems := by
  have hsettle : ∀ outcome first,
      (s.AnswersReference id outcome ∧ first = []) →
      s.Ensures (s.settleId shown id source outcome) fun out rest =>
        ∃ outcome, s.AnswersReference id outcome
          ∧ s.SettlesId shown id source outcome out (first ++ rest) := by
    rintro outcome first ⟨hanswer, rfl⟩
    exact (ensures_settleId shown id source outcome).mono
      fun out problems h => ⟨outcome, hanswer, h⟩
  unfold resolveId
  by_cases hid : id = ""
  · subst hid
    exact ensures_nextAnonymous.bind hsettle
  · simp only [if_neg hid]
    refine (ensures_lookUpId id).bind fun outcome first h => ?_
    refine hsettle outcome first ⟨?_, h.2⟩
    rw [AnswersReference, if_neg hid]
    exact h.1

theorem ensures_footnoteFor (label : FootnoteLabel) :
    s.Ensures (s.footnoteFor label) fun found problems =>
      s.Means label found ∧ problems = [] := by
  cases label with
  | numeric number => exact .pure ⟨.numeric, rfl⟩
  | labelled label => exact .pure ⟨.labelled, rfl⟩
  | autonumber =>
      intro st _
      refine ⟨⟨[], rfl⟩, [], (List.append_nil _).symm, ?_, rfl⟩
      simp only [footnoteFor, FootnoteCursor.nextAutonumber]
      cases hat : (s.index.footnotes.assignedTo .autonumber)[st.cursor.autonumbers]? with
      | none => exact .autonumbersExhausted
      | some footnote => exact .autonumber (List.mem_of_getElem? hat)
  | autosymbol =>
      intro st _
      refine ⟨⟨[], rfl⟩, [], (List.append_nil _).symm, ?_, rfl⟩
      simp only [footnoteFor, FootnoteCursor.nextAutosymbol]
      cases hat : (s.index.footnotes.assignedTo .autosymbol)[st.cursor.autosymbols]? with
      | none => exact .autosymbolsExhausted
      | some footnote => exact .autosymbol (List.mem_of_getElem? hat)

/-! ## Steps that only report -/

/-- The step changes nothing but the diagnostics. -/
def Quiet (x : Pass α) : Prop :=
  ∀ st : PassState, ∃ diagnostics, (x st).2 = { st with diagnostics := diagnostics }

theorem quiet_pure (a : α) : Quiet (Pure.pure a : Pass α) := fun _ => ⟨_, rfl⟩

theorem quiet_invalidSpan (fallback : Span) (failure : Failure) :
    Quiet (s.invalidSpan fallback failure) := fun _ => ⟨_, rfl⟩

theorem quiet_settlePath (shown : Appearance) (path : WrittenPath)
    (title : Option String) (source : String) :
    Quiet (s.settlePath shown path title source) := by
  unfold settlePath
  split
  · exact quiet_pure _
  · exact quiet_pure _
  · exact quiet_invalidSpan _ _

theorem quiet_settleId (shown : Appearance) (id source : String) :
    ∀ outcome, Quiet (s.settleId shown id source outcome)
  | .found (.external _ _) => quiet_pure _
  | .found (.target _) => quiet_pure _
  | .found (.path _ _) => quiet_settlePath _ _ _ _
  | .deferred _ => quiet_pure _
  | .missing _ => quiet_invalidSpan _ _
  | .failed _ => quiet_invalidSpan _ _

/-! ## Spans -/

theorem ensures_resolveCitation (label source : String) :
    s.Ensures (s.resolveCitation label source)
      (ReferenceKind.Yields s (.citation label) source) := by
  unfold resolveCitation
  split
  · rename_i span hspan
    exact .pure (.citation hspan)
  · rename_i failure hfailure
    exact ensures_invalidSpan (.citationFailed hfailure)

theorem ensures_resolveFootnote (label : FootnoteLabel) (source : String) :
    s.Ensures (s.resolveFootnote label source)
      (ReferenceKind.Yields s (.footnote label) source) := by
  refine (ensures_footnoteFor label).bind fun found first h => ?_
  obtain ⟨hmeans, rfl⟩ := h
  cases found with
  | ok footnote => exact .pure (.footnote hmeans)
  | error failure => exact ensures_invalidSpan (.footnoteFailed hmeans)

mutual

theorem ensures_resolveSpan : ∀ span : Span,
    s.Ensures (s.resolveSpan span) (Span.Yields s span)
  | .text text => .pure .text
  | .literal text => .pure .literal
  | .emphasized content => by
      rw [resolveSpan]
      exact (ensures_resolveSpans content).map fun _ _ h => .emphasized h
  | .strong content => by
      rw [resolveSpan]
      exact (ensures_resolveSpans content).map fun _ _ h => .strong h
  | .verbatim kind content => .pure .verbatim
  | .reference kind source => by
      rw [resolveSpan]
      exact (ensures_resolveReference kind source).mono fun _ _ h => .reference h
  | .link content target title => by
      rw [resolveSpan]
      exact (ensures_resolveSpans content).map fun _ _ h => .link h
  | .image alt target title => .pure .image
  | .citationLink label reference => .pure .citationLink
  | .footnoteLink id label => .pure .footnoteLink
  | .invalid fallback problem => .pure .invalid

theorem ensures_resolveReference : ∀ (kind : ReferenceKind) (source : String),
    s.Ensures (s.resolveReference kind source)
      (ReferenceKind.Yields s kind source)
  | .citation label, source => ensures_resolveCitation label source
  | .footnote label, source => ensures_resolveFootnote label source
  | .imageId alt id, source => by
      rw [resolveReference]
      refine (ensures_resolveId (.image alt) id source).mono fun _ _ h => ?_
      obtain ⟨outcome, hanswer, hsettles⟩ := h
      exact .imageId hanswer hsettles
  | .imagePath alt path title, source => by
      rw [resolveReference]
      exact (ensures_settlePath (.image alt) path title source).mono
        fun _ _ h => .imagePath h
  | .linkId content id, source => by
      rw [resolveReference]
      refine (ensures_resolveSpans content).bind fun content' inner hcontent => ?_
      refine (ensures_resolveId (.link content') id source).mono fun _ _ h => ?_
      obtain ⟨outcome, hanswer, hsettles⟩ := h
      exact .linkId hcontent hanswer hsettles
  | .linkPath content path title, source => by
      rw [resolveReference]
      exact (ensures_settlePath (.link content) path title source).mono
        fun _ _ h => .linkPath h

theorem ensures_resolveSpans : ∀ spans : List Span,
    s.Ensures (s.resolveSpans spans) (Spans.Yields s spans)
  | [] => .pure .nil
  | span :: spans => by
      rw [resolveSpans]
      refine (ensures_resolveSpan span).bind fun out first hspan => ?_
      exact (ensures_resolveSpans spans).map fun _ _ h => .cons hspan h

end

/-! ## Blocks -/

theorem ensures_checkAnchor (id : Option String) (block : Block) :
    s.Ensures (s.checkAnchor id block) (s.ChecksAnchor id block) := by
  unfold checkAnchor
  split
  · exact .pure (.kept fun i hi => by cases hi)
  · rename_i id
    split
    · rename_i hdup
      exact ensures_invalidBlock (.repeated rfl hdup)
    · rename_i hdup
      refine .pure (.kept fun i hi => ?_)
      obtain rfl := Option.some.inj hi
      exact Bool.eq_false_iff.mpr hdup

theorem ensures_finishCitation (label : String) (id : Option String)
    (content : List Block) :
    s.Ensures (s.finishCitation label id content)
      (s.FinishesCitation label id content) := by
  unfold finishCitation
  split
  · rename_i hname
    exact ensures_invalidBlock (.nameless hname)
  · rename_i hname
    simp only
    split
    · rename_i hdup
      exact ensures_invalidBlock (.repeated hname hdup)
    · rename_i hdup
      exact .pure (.kept hname (Bool.eq_false_iff.mpr hdup))

theorem ensures_finishFootnote (place : Nat) (label : FootnoteLabel)
    (content : List Block) :
    s.Ensures (s.finishFootnote place label content)
      (s.FinishesFootnote place label content) := by
  unfold finishFootnote
  split
  · rename_i key hkey
    exact ensures_invalidBlock (.repeated hkey)
  · rename_i hkey
    split
    · rename_i assigned hat
      exact .pure (.numbered hkey hat)
    · rename_i hat
      exact ensures_invalidBlock (.nameless hkey hat)

theorem ensures_resolveAlias (indirection : LinkAlias) :
    s.Ensures (s.resolveAlias indirection) (s.DropsAlias indirection) := by
  unfold resolveAlias
  simp only
  split
  · rename_i hdup
    exact ensures_someInvalid (.repeated hdup)
  · rename_i hdup
    have hunique := Bool.eq_false_iff.mpr hdup
    refine (ensures_lookUpId indirection.id).bind fun outcome first h => ?_
    obtain ⟨hanswer, rfl⟩ := h
    split
    · rename_i failure
      split
      · rename_i hloop
        exact ensures_someInvalid (.looping hunique hanswer hloop)
      · rename_i hends
        exact .pure (.dropped hunique hanswer (Bool.eq_false_iff.mpr hends))
    · rename_i hfound
      refine .pure (.dropped hunique hanswer ?_)
      cases outcome with
      | failed failure => exact absurd rfl (hfound failure)
      | found destination => rfl
      | deferred last => rfl
      | missing last => rfl

theorem ensures_resolveDefinition (definition : LinkDefinition) :
    s.Ensures (s.resolveDefinition definition) (s.DropsDefinition definition) := by
  unfold resolveDefinition
  split
  · rename_i url htarget
    exact .pure (.external htarget)
  · rename_i path htarget
    split
    · rename_i h
      exact ensures_someInvalid (.repeated htarget h.1 h.2)
    · rename_i h
      refine .pure (.internal htarget ?_)
      rcases Decidable.em (definition.id = "") with hname | hname
      · exact Or.inl hname
      · exact Or.inr (Bool.eq_false_iff.mpr fun hdup => h ⟨hname, hdup⟩)

mutual

theorem ensures_resolveBlock : ∀ block : Block,
    s.Ensures (s.resolveBlock block) (Block.Yields s block)
  | .paragraph content => by
      rw [resolveBlock]
      exact (ensures_resolveSpans content).map fun _ _ h => .paragraph h
  | .codeBlock code language => .pure .codeBlock
  | .rule => .pure .rule
  | .verbatim kind content => .pure .verbatim
  | .decoratedHeader header => .pure .decoratedHeader
  | .header header => by
      rw [resolveBlock]
      refine (ensures_resolveSpans header.content).bind fun text inner htext => ?_
      exact (ensures_checkAnchor header.id _).map fun _ _ h => .header htext h
  | .title title => by
      rw [resolveBlock]
      refine (ensures_resolveSpans title.content).bind fun text inner htext => ?_
      exact (ensures_checkAnchor title.id _).map fun _ _ h => .title htext h
  | .sectionOf header content => by
      rw [resolveBlock]
      refine (ensures_resolveSpans header.content).bind fun text first htext => ?_
      refine (ensures_resolveBlocks content).bind fun content' inner hcontent => ?_
      exact (ensures_checkAnchor header.id _).map
        fun _ _ h => .sectionOf htext hcontent h
  | .quoted content => by
      rw [resolveBlock]
      exact (ensures_resolveBlocks content).map fun _ _ h => .quoted h
  | .anchor id => by
      rw [resolveBlock]
      exact (ensures_checkAnchor (some id) (.anchor id)).map fun _ _ h => .anchor h
  | .linkDefinition definition => by
      rw [resolveBlock]
      exact (ensures_resolveDefinition definition).mono
        fun _ _ h => .linkDefinition h
  | .linkAlias indirection => by
      rw [resolveBlock]
      exact (ensures_resolveAlias indirection).mono fun _ _ h => .linkAlias h
  | .citation label id content => by
      rw [resolveBlock]
      refine (ensures_resolveBlocks content).bind fun content' inner hcontent => ?_
      exact (ensures_finishCitation label id content').map
        fun _ _ h => .citation hcontent h
  | .footnoteDefinition label content => by
      rw [resolveBlock]
      refine ensures_nextFootnote.bind fun place first hfirst => ?_
      subst hfirst
      simp only [List.nil_append]
      refine (ensures_resolveBlocks content).bind fun content' inner hcontent => ?_
      exact (ensures_finishFootnote place label content').map
        fun _ _ h => .footnoteDefinition hcontent h
  | .footnote id label content => by
      rw [resolveBlock]
      exact (ensures_resolveBlocks content).map fun _ _ h => .footnote h
  | .reference kind source => by
      rw [resolveBlock]
      exact (ensures_resolveReference kind source).map fun _ _ h => .reference h
  | .invalid fallback problem => by
      rw [resolveBlock]
      exact (ensures_resolveInside fallback).map fun _ _ h => .invalid h

theorem ensures_resolveInside : ∀ block : Block,
    s.Ensures (s.resolveInside block) (Block.YieldsInside s block)
  | .citation label id content => by
      rw [resolveInside]
      exact (ensures_resolveBlocks content).map fun _ _ h => .citation h
  | .footnoteDefinition label content => by
      rw [resolveInside]
      exact (ensures_resolveBlocks content).map fun _ _ h => .footnoteDefinition h
  | .header header => by
      rw [resolveInside]
      exact (ensures_resolveSpans header.content).map fun _ _ h => .header h
  | .sectionOf header content => by
      rw [resolveInside]
      refine (ensures_resolveSpans header.content).bind fun text first htext => ?_
      exact (ensures_resolveBlocks content).map fun _ _ h => .sectionOf htext h
  | .title title => by
      rw [resolveInside]
      exact (ensures_resolveSpans title.content).map fun _ _ h => .title h
  | .paragraph content => .pure (.sealed rfl)
  | .codeBlock code language => .pure (.sealed rfl)
  | .rule => .pure (.sealed rfl)
  | .verbatim kind content => .pure (.sealed rfl)
  | .decoratedHeader header => .pure (.sealed rfl)
  | .quoted content => .pure (.sealed rfl)
  | .anchor id => .pure (.sealed rfl)
  | .linkDefinition definition => .pure (.sealed rfl)
  | .linkAlias indirection => .pure (.sealed rfl)
  | .footnote id label content => .pure (.sealed rfl)
  | .reference kind source => .pure (.sealed rfl)
  | .invalid fallback problem => .pure (.sealed rfl)

theorem ensures_resolveBlocks : ∀ blocks : List Block,
    s.Ensures (s.resolveBlocks blocks) (Blocks.Yields s blocks)
  | [] => .pure .nil
  | block :: blocks => by
      rw [resolveBlocks]
      refine (ensures_resolveBlock block).bind fun out first hblock => ?_
      exact (ensures_resolveBlocks blocks).map fun _ _ h => .cons hblock h

end

/-! ## The whole pass -/

/-- A pass over a document follows the rules, and its diagnostics are the
problems reported on the way, all at the place of the document. -/
theorem yields_run (s : Scope) (blocks : List Block) :
    ∃ problems, Blocks.Yields s blocks (s.run blocks).1 problems
      ∧ (s.run blocks).2 = problems.map (Diagnostic.mk s.document) := by
  obtain ⟨-, problems, hproblems, hyields⟩ :=
    ensures_resolveBlocks (s := s) blocks {} (cacheSound_nil s)
  exact ⟨problems, hyields, hproblems⟩

end Scope

end Crosslink
