import Crosslink.Proofs.Meetings
import Crosslink.Proofs.Surplus

/-!
# References take their turns

A pass counts the references of each scheme and the footnote definitions it has
met (`Tally`). `Course t meetings t'` is a run of such meetings: each reference
takes the definition at the position it has in its scheme, each footnote definition
the number at its place, and the counts go up by one. `Meets x Q` is the contract
of a step of a pass: what it meets is a course from the counts before to the counts
after, and for every scheme the diagnostics say how many references came after the
last definition (`Sound`). Contracts compose, and every step that deals with one
reference has one (`meets_resolveId`, `meets_resolveFootnote`).
-/

namespace Crosslink

/-! ## Counts -/

/-- How many references of each scheme and how many footnote definitions were
met. -/
structure Tally where
  references : Scheme → Nat
  definitions : Nat

namespace Tally

/-- After one more reference. -/
def refer (t : Tally) (kind : ReferenceKind) : Tally :=
  { t with
    references := fun scheme =>
      t.references scheme + if kind.scheme? = some scheme then 1 else 0 }

/-- After one more footnote definition. -/
def define (t : Tally) : Tally := { t with definitions := t.definitions + 1 }

theorem refer_of_none {kind : ReferenceKind} (h : kind.scheme? = none) (t : Tally) :
    t.refer kind = t := by
  simp [refer, h]

end Tally

/-- What the state of a pass counts. -/
def PassState.tally (st : PassState) : Tally where
  references
    | .anonymous => st.anonymousNext
    | .autonumber => st.cursor.autonumbers
    | .autosymbol => st.cursor.autosymbols
  definitions := st.footnoteNext

namespace Scope

variable {s : Scope} {declarations : List Declaration} {α β : Type}

/-- What becomes of a reference after the meetings counted, and what is reported: a
positional one takes the definition at its position. -/
inductive Serves (s : Scope) (declarations : List Declaration) (t : Tally)
    (turn : Turn) (problems : List Problem) : Prop
  | positional {scheme : Scheme} (hscheme : turn.kind.scheme? = some scheme)
      (h : s.Takes turn.kind turn.source
        (scheme.definitions declarations)[t.references scheme]? turn.out problems)
  | named (hscheme : turn.kind.scheme? = none)
      (h : ∀ problem ∈ problems, problem.Ordinary)

/-- A run of meetings: from one to the next the counts go up by one. -/
inductive Course (s : Scope) (declarations : List Declaration) :
    Tally → List Meeting → Tally → Prop
  | nil {t : Tally} : Course s declarations t [] t
  | reference {t t' : Tally} {turn : Turn} {problems : List Problem}
      {rest : List Meeting} (h : s.Serves declarations t turn problems)
      (hrest : Course s declarations (t.refer turn.kind) rest t') :
      Course s declarations t (.reference turn :: rest) t'
  | definition {t t' : Tally} {noted : Noted} {problems : List Problem}
      {rest : List Meeting}
      (h : s.FinishesFootnote t.definitions noted.label noted.content noted.out problems)
      (hrest : Course s declarations t.define rest t') :
      Course s declarations t (.definition noted :: rest) t'

theorem Course.append {t t' t'' : Tally} {first rest : List Meeting}
    (h : s.Course declarations t first t') (hrest : s.Course declarations t' rest t'') :
    s.Course declarations t (first ++ rest) t'' := by
  induction h with
  | nil => exact hrest
  | reference h _ ih => exact .reference h (ih hrest)
  | definition h _ ih => exact .definition h (ih hrest)

/-! ## Contracts -/

/-- How many diagnostics are about surplus references of the scheme. -/
def surplusReports (scheme : Scheme) (diagnostics : List Diagnostic) : Nat :=
  diagnostics.countP fun d => d.problem.kind = scheme.kind

/-- The memory is sound, and what was reported says of each scheme how many
references came after the last definition. -/
structure Sound (s : Scope) (declarations : List Declaration) (st : PassState) :
    Prop where
  cache : s.CacheSound st.cache
  reports : ∀ scheme, surplusReports scheme st.diagnostics
    = st.tally.references scheme - (scheme.definitions declarations).length

/-- What the step meets is a course from the counts before to the counts after, and
its result and these meetings satisfy `Q`. -/
def Meets (s : Scope) (declarations : List Declaration) (x : Pass α)
    (Q : α → List Meeting → Prop) : Prop :=
  ∀ st : PassState, s.Sound declarations st →
    s.Sound declarations (x st).2
      ∧ ∃ meetings, s.Course declarations st.tally meetings (x st).2.tally
        ∧ Q (x st).1 meetings

theorem Meets.pure {a : α} {Q : α → List Meeting → Prop} (h : Q a []) :
    s.Meets declarations (Pure.pure a) Q :=
  fun _ hst => ⟨hst, [], .nil, h⟩

theorem Meets.bind {x : Pass α} {f : α → Pass β} {P : α → List Meeting → Prop}
    {Q : β → List Meeting → Prop} (hx : s.Meets declarations x P)
    (hf : ∀ a first, P a first →
      s.Meets declarations (f a) fun b rest => Q b (first ++ rest)) :
    s.Meets declarations (x >>= f) Q := by
  intro st hst
  obtain ⟨hnext, first, hfirst, hP⟩ := hx st hst
  obtain ⟨hlast, rest, hrest, hQ⟩ := hf _ first hP _ hnext
  exact ⟨hlast, first ++ rest, hfirst.append hrest, hQ⟩

theorem Meets.mono {x : Pass α} {P Q : α → List Meeting → Prop}
    (hx : s.Meets declarations x P) (h : ∀ a meetings, P a meetings → Q a meetings) :
    s.Meets declarations x Q := by
  intro st hst
  obtain ⟨hnext, meetings, hcourse, hP⟩ := hx st hst
  exact ⟨hnext, meetings, hcourse, h _ _ hP⟩

theorem Meets.map {x : Pass α} {f : α → β} {P : α → List Meeting → Prop}
    {Q : β → List Meeting → Prop} (hx : s.Meets declarations x P)
    (h : ∀ a meetings, P a meetings → Q (f a) meetings) :
    s.Meets declarations (x >>= fun a => Pure.pure (f a)) Q :=
  hx.bind fun a first ha => .pure (by rw [List.append_nil]; exact h a first ha)

/-! ## Steps that meet nothing -/

theorem surplusReports_append (scheme : Scheme) (first second : List Diagnostic) :
    surplusReports scheme (first ++ second)
      = surplusReports scheme first + surplusReports scheme second :=
  List.countP_append

theorem surplusReports_ordinary {problems : List Problem}
    (h : ∀ problem ∈ problems, problem.Ordinary) (scheme : Scheme)
    (document : AbsolutePath) :
    surplusReports scheme (problems.map (Diagnostic.mk document)) = 0 := by
  refine List.countP_eq_zero.mpr fun diagnostic hmem => ?_
  obtain ⟨problem, hproblem, rfl⟩ := List.mem_map.mp hmem
  simpa using h problem hproblem scheme

/-- The step leaves the counts alone. -/
def Unmoved (x : Pass α) : Prop := ∀ st : PassState, (x st).2.tally = st.tally

theorem Quiet.unmoved {x : Pass α} (h : Quiet x) : Unmoved x := by
  intro st
  obtain ⟨_, heq⟩ := h st
  rw [heq]
  rfl

theorem unmoved_pure (a : α) : Unmoved (Pure.pure a : Pass α) := fun _ => rfl

theorem Unmoved.bind {x : Pass α} {f : α → Pass β} (hx : Unmoved x)
    (hf : ∀ a, Unmoved (f a)) : Unmoved (x >>= f) :=
  fun st => (hf _ _).trans (hx st)

theorem unmoved_lookUpId (id : String) : Unmoved (s.lookUpId id) := fun _ => rfl

theorem unmoved_invalidBlock (fallback : Block) (failure : Failure) :
    Unmoved (s.invalidBlock fallback failure) := fun _ => rfl

theorem Meets.of_unmoved {x : Pass α} {P : α → List Problem → Prop}
    {Q : α → List Meeting → Prop} (hmoved : Unmoved x) (hx : s.Ensures x P)
    (h : ∀ a problems, P a problems →
      (∀ problem ∈ problems, problem.Ordinary) ∧ Q a []) :
    s.Meets declarations x Q := by
  intro st hst
  obtain ⟨⟨ids, hids⟩, problems, hproblems, hP⟩ := hx st hst.cache
  obtain ⟨hordinary, hQ⟩ := h _ _ hP
  refine ⟨⟨?_, fun scheme => ?_⟩, [], ?_, hQ⟩
  · rw [hids]
    exact cacheSound_afterLookUps hst.cache ids
  · rw [hproblems, hmoved st, surplusReports_append,
      surplusReports_ordinary hordinary, hst.reports]
    rfl
  · rw [hmoved st]
    exact .nil

/-! ## One reference -/

/-- A reference that finds a definition at its position is no surplus. -/
theorem Takes.ordinary {kind : ReferenceKind} {source : String} {placed : Placed}
    {out : Span} {problems : List Problem}
    (h : s.Takes kind source (some placed) out problems) :
    ∀ problem ∈ problems, problem.Ordinary := by
  cases h with
  | destination h => exact h.ordinary nofun
  | footnote => exact Problem.ordinary_nil

theorem Takes.problems_eq {kind : ReferenceKind} {source : String} {out : Span}
    {problems : List Problem} {scheme : Scheme} (hscheme : kind.scheme? = some scheme)
    (h : s.Takes kind source none out problems) :
    problems = [scheme.exhausted.problem] := by
  cases h with
  | nothing h => rw [Option.some.inj (h.symm.trans hscheme)]

/-- A positional reference is reported under its scheme exactly if it comes after
the last definition. -/
theorem Takes.surplusReports_eq {kind : ReferenceKind} {source : String} {out : Span}
    {problems : List Problem} {own : Scheme} {k : Nat}
    (hown : kind.scheme? = some own)
    (h : s.Takes kind source (own.definitions declarations)[k]? out problems)
    (scheme : Scheme) (document : AbsolutePath) :
    surplusReports scheme (problems.map (Diagnostic.mk document))
      = if own = scheme ∧ (own.definitions declarations).length ≤ k then 1 else 0 := by
  cases hat : (own.definitions declarations)[k]? with
  | some placed =>
      rw [hat] at h
      have hlt := (List.getElem?_eq_some_iff.mp hat).1
      rw [surplusReports_ordinary h.ordinary, if_neg fun hle => Nat.not_le_of_lt hlt hle.2]
  | none =>
      rw [hat] at h
      have hle := List.getElem?_eq_none_iff.mp hat
      rw [h.problems_eq hown]
      by_cases heq : own = scheme
      · simp [surplusReports, heq, heq ▸ hle]
      · have hother : own.kind ≠ scheme.kind := fun h => heq (Scheme.kind_inj h)
        simp [surplusReports, heq, hother]

/-- What a reference reports keeps the reports at the number of surplus
references. -/
theorem Serves.reports {t : Tally} {turn : Turn} {problems : List Problem}
    (h : s.Serves declarations t turn problems) (scheme : Scheme)
    (document : AbsolutePath) :
    t.references scheme - (scheme.definitions declarations).length
        + surplusReports scheme (problems.map (Diagnostic.mk document))
      = (t.refer turn.kind).references scheme
        - (scheme.definitions declarations).length := by
  cases h with
  | named hscheme h =>
      rw [surplusReports_ordinary h, Tally.refer_of_none hscheme]
      rfl
  | @positional own hown h =>
      have hrefer : (t.refer turn.kind).references scheme
          = t.references scheme + if own = scheme then 1 else 0 := by
        simp [Tally.refer, hown]
      rw [hrefer, h.surplusReports_eq hown]
      by_cases heq : own = scheme
      · subst heq
        simp only [true_and, if_true]
        split <;> omega
      · simp [heq]

/-- The contract of a step that deals with one reference. -/
theorem Meets.turn {kind : ReferenceKind} {source : String} {x : Pass Span}
    (h : ∀ st : PassState, s.CacheSound st.cache →
      s.CacheSound (x st).2.cache ∧ (x st).2.tally = st.tally.refer kind
        ∧ ∃ problems : List Problem,
          (x st).2.diagnostics
              = st.diagnostics ++ problems.map (Diagnostic.mk s.document)
            ∧ s.Serves declarations st.tally ⟨kind, source, (x st).1⟩ problems) :
    s.Meets declarations x fun out meetings =>
      meetings = [.reference ⟨kind, source, out⟩] := by
  intro st hst
  obtain ⟨hcache, htally, problems, hproblems, hserves⟩ := h st hst.cache
  refine ⟨⟨hcache, fun scheme => ?_⟩, _, ?_, rfl⟩
  · rw [hproblems, surplusReports_append, hst.reports, htally]
    exact hserves.reports scheme s.document
  · rw [htally]
    exact .reference hserves .nil

theorem Meets.named {kind : ReferenceKind} {source : String} {x : Pass Span}
    {P : Span → List Problem → Prop} (hscheme : kind.scheme? = none)
    (hmoved : Unmoved x) (hx : s.Ensures x P)
    (h : ∀ out problems, P out problems → ∀ problem ∈ problems, problem.Ordinary) :
    s.Meets declarations x fun out meetings =>
      meetings = [.reference ⟨kind, source, out⟩] := by
  refine .turn fun st hcache => ?_
  obtain ⟨⟨ids, hids⟩, problems, hproblems, hP⟩ := hx st hcache
  refine ⟨?_, ?_, problems, hproblems, .named hscheme (h _ _ hP)⟩
  · rw [hids]
    exact cacheSound_afterLookUps hcache ids
  · rw [Tally.refer_of_none hscheme]
    exact hmoved st

theorem meets_settlePath {shown : Appearance} {path : WrittenPath}
    {title : Option String} {kind : ReferenceKind} (source : String)
    (hscheme : kind.scheme? = none) :
    s.Meets declarations (s.settlePath shown path title source) fun out meetings =>
      meetings = [.reference ⟨kind, source, out⟩] :=
  .named hscheme (quiet_settlePath shown path title source).unmoved
    (ensures_settlePath shown path title source) fun _ _ h => h.ordinary

theorem meets_resolveCitation (label source : String) :
    s.Meets declarations (s.resolveCitation label source) fun out meetings =>
      meetings = [.reference ⟨.citation label, source, out⟩] := by
  have hquiet : Quiet (s.resolveCitation label source) := by
    unfold resolveCitation
    split
    · exact quiet_pure _
    · exact quiet_invalidSpan _ _
  refine .named rfl hquiet.unmoved (ensures_resolveCitation label source)
    fun out problems h => ?_
  cases h with
  | citation => exact Problem.ordinary_nil
  | citationFailed h => exact Failure.ordinary_singleton (citation_isOrdinary h)

theorem meets_named_footnote {label : FootnoteLabel} (hlabel : label.scheme? = none)
    (source : String) :
    s.Meets declarations (s.resolveFootnote label source) fun out meetings =>
      meetings = [.reference ⟨.footnote label, source, out⟩] := by
  have hfind : Unmoved (s.footnoteFor label) := by
    cases label with
    | numeric => exact unmoved_pure _
    | labelled => exact unmoved_pure _
    | autonumber => cases hlabel
    | autosymbol => cases hlabel
  have hmoved : Unmoved (s.resolveFootnote label source) := by
    refine hfind.bind fun found => ?_
    cases found with
    | ok footnote => exact unmoved_pure _
    | error failure => exact (quiet_invalidSpan _ _).unmoved
  refine .named hlabel hmoved (ensures_resolveFootnote label source)
    fun out problems h => ?_
  cases h with
  | footnote => exact Problem.ordinary_nil
  | footnoteFailed h => exact Failure.ordinary_singleton (h.isOrdinary hlabel)

/-! ## Positional references -/

section

variable (hindex : s.index = .ofDeclarations declarations)

include hindex

/-- What an anonymous reference is paired with is the definition at its
position. -/
theorem takes_nextAnonymous {shown : Appearance} {source : String} {st : PassState}
    {out : Span} {problems : List Problem}
    (h : s.SettlesId shown "" source (s.nextAnonymous st).1 out problems) :
    s.Takes (shown.named "") source
      (Scheme.anonymous.definitions declarations)[st.anonymousNext]? out problems := by
  unfold nextAnonymous at h
  rcases anonymous_at hindex st.anonymousNext with
    ⟨place, defined, hplaced, hdefined⟩ | ⟨hplaced, hdefined⟩
  · rw [hplaced]
    simp only [hdefined] at h
    exact .destination h
  · rw [hplaced]
    simp only [hdefined] at h
    cases h
    rw [Appearance.byId_eq]
    exact .nothing (shown.scheme?_named "")

theorem meets_anonymous (shown : Appearance) (source : String) :
    s.Meets declarations (s.resolveId shown "" source) fun out meetings =>
      meetings = [.reference ⟨shown.named "", source, out⟩] := by
  have hscheme : (shown.named "").scheme? = some .anonymous := shown.scheme?_named ""
  refine .turn fun st hcache => ?_
  have hnext : (s.nextAnonymous st).2.tally = st.tally.refer (shown.named "") := by
    refine congrArg (Tally.mk · _) (funext fun scheme => ?_)
    rw [hscheme]
    cases scheme <;> rfl
  have hresolve : (s.resolveId shown "" source) st
      = s.settleId shown "" source (s.nextAnonymous st).1 (s.nextAnonymous st).2 := rfl
  obtain ⟨⟨ids, hids⟩, problems, hproblems, hsettles⟩ :=
    ensures_settleId shown "" source (s.nextAnonymous st).1 (s.nextAnonymous st).2 hcache
  rw [hresolve]
  refine ⟨?_, ?_, problems, hproblems,
    .positional hscheme (takes_nextAnonymous hindex hsettles)⟩
  · rw [hids]
    exact cacheSound_afterLookUps hcache ids
  · rw [(quiet_settleId shown "" source _).unmoved, hnext]

theorem meets_resolveId (shown : Appearance) (id source : String) :
    s.Meets declarations (s.resolveId shown id source) fun out meetings =>
      meetings = [.reference ⟨shown.named id, source, out⟩] := by
  by_cases hid : id = ""
  · subst hid
    exact meets_anonymous hindex shown source
  · have hscheme : (shown.named id).scheme? = none := by
      rw [Appearance.scheme?_named, if_neg hid]
    have hmoved : Unmoved (s.resolveId shown id source) := by
      unfold resolveId
      simp only [if_neg hid]
      exact (unmoved_lookUpId id).bind fun outcome =>
        (quiet_settleId shown id source outcome).unmoved
    refine .named hscheme hmoved (ensures_resolveId shown id source) fun out problems h => ?_
    obtain ⟨outcome, hanswer, hsettles⟩ := h
    rw [AnswersReference, if_neg hid] at hanswer
    refine hsettles.ordinary fun failure heq => ?_
    rw [heq] at hanswer
    exact hanswer.isOrdinary

omit hindex in
/-- A positional footnote reference asks for the footnote at its position and is
counted. -/
theorem footnoteFor_positional {label : FootnoteLabel} {scheme : Scheme}
    (hscheme : label.scheme? = some scheme) (st : PassState) :
    ∃ next : PassState,
      s.footnoteFor label st
          = ((s.index.footnotes.assignedTo label)[st.tally.references scheme]?.elim
              (.error scheme.exhausted) .ok, next)
        ∧ next.tally = st.tally.refer (.footnote label)
        ∧ next.cache = st.cache ∧ next.diagnostics = st.diagnostics := by
  cases label with
  | numeric => cases hscheme
  | labelled => cases hscheme
  | autonumber =>
      cases hscheme
      refine ⟨(s.footnoteFor .autonumber st).2, Prod.ext ?_ rfl,
        congrArg (Tally.mk · _) (funext fun scheme => ?_), rfl, rfl⟩
      · show _ = (s.index.footnotes.assignedTo .autonumber)[st.cursor.autonumbers]?.elim _ _
        simp only [footnoteFor, FootnoteCursor.nextAutonumber]
        cases (s.index.footnotes.assignedTo .autonumber)[st.cursor.autonumbers]? <;> rfl
      · cases scheme <;> rfl
  | autosymbol =>
      cases hscheme
      refine ⟨(s.footnoteFor .autosymbol st).2, Prod.ext ?_ rfl,
        congrArg (Tally.mk · _) (funext fun scheme => ?_), rfl, rfl⟩
      · show _ = (s.index.footnotes.assignedTo .autosymbol)[st.cursor.autosymbols]?.elim _ _
        simp only [footnoteFor, FootnoteCursor.nextAutosymbol]
        cases (s.index.footnotes.assignedTo .autosymbol)[st.cursor.autosymbols]? <;> rfl
      · cases scheme <;> rfl

omit hindex in
theorem resolveFootnote_of_ok {label : FootnoteLabel} {st next : PassState}
    {footnote : NumberedFootnote} (h : s.footnoteFor label st = (.ok footnote, next))
    (source : String) :
    s.resolveFootnote label source st
      = (.footnoteLink footnote.id footnote.label, next) := by
  simp only [resolveFootnote, bind, StateT.bind, h]
  rfl

omit hindex in
theorem resolveFootnote_of_error {label : FootnoteLabel} {st next : PassState}
    {failure : Failure} (h : s.footnoteFor label st = (.error failure, next))
    (source : String) :
    s.resolveFootnote label source st
      = s.invalidSpan (.reference (.footnote label) source) failure next := by
  simp only [resolveFootnote, bind, StateT.bind, h]

theorem meets_positional_footnote {label : FootnoteLabel} {scheme : Scheme}
    (hscheme : label.scheme? = some scheme) (source : String) :
    s.Meets declarations (s.resolveFootnote label source) fun out meetings =>
      meetings = [.reference ⟨.footnote label, source, out⟩] := by
  refine .turn fun st hcache => ?_
  obtain ⟨next, hfound, htally, hnext, hreported⟩ :=
    footnoteFor_positional (s := s) hscheme st
  rcases assignedTo_at hindex hscheme (st.tally.references scheme) with
    ⟨place, footnote, hplaced, hdefinition, hassigned⟩ | ⟨hplaced, hassigned⟩
  · rw [hassigned] at hfound
    rw [resolveFootnote_of_ok hfound]
    refine ⟨hnext ▸ hcache, htally, [], ?_, .positional hscheme ?_⟩
    · exact hreported.trans (List.append_nil _).symm
    · rw [hplaced]
      exact .footnote hdefinition
  · rw [hassigned] at hfound
    rw [resolveFootnote_of_error hfound]
    refine ⟨hnext ▸ hcache, htally, [scheme.exhausted.problem], ?_,
      .positional hscheme ?_⟩
    · exact congrArg (· ++ [⟨s.document, scheme.exhausted.problem⟩]) hreported
    · rw [hplaced]
      exact .nothing hscheme

theorem meets_resolveFootnote (label : FootnoteLabel) (source : String) :
    s.Meets declarations (s.resolveFootnote label source) fun out meetings =>
      meetings = [.reference ⟨.footnote label, source, out⟩] := by
  cases hscheme : label.scheme? with
  | none => exact meets_named_footnote hscheme source
  | some scheme => exact meets_positional_footnote hindex hscheme source

end

end Scope

end Crosslink
