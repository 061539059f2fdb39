import Crosslink.Proofs.Becomes
import Crosslink.Proofs.Pending
import Crosslink.Proofs.Verdict
import Mathlib.Data.List.Forall2

/-!
# References by id after both phases

A reference by id passes through two searches in different indexes, and in
between it may turn into a reference by path or get the id at the end of
its chain of aliases. All of this comes to one verdict
(`Crosslink.Proofs.Verdict`) on that last id: the first phase follows the
chain, and the second one finds no alias any more, neither for the last id
nor for any other name that the first index lacked. `DocumentRoot.Settles`
states it for one reference, and `resolve_follows_verdicts` for every
reference that the passes reach in a tree.
-/

namespace Crosslink

/-! ## What a link or an image shows in the end -/

namespace Appearance

/-- The same picture, or the same text whatever became of the references in
it. -/
inductive Alike : Appearance → Appearance → Prop
  | link {content content' : List Span}
      (h : Spans.Becomes (fun _ _ _ => True) content content') :
      Alike (.link content) (.link content')
  | image {alt : String} : Alike (.image alt) (.image alt)

/-- The reference is one to be shown as this link or image. -/
inductive Refers (shown : Appearance) (source : String) : Span → Prop
  | byId {id : String} : Refers shown source (shown.byId id source)
  | byPath {path : WrittenPath} {title : Option String} :
      Refers shown source (shown.byPath path title source)

/-- What a verdict on `id` makes of a reference. -/
inductive Shows (shown : Appearance) (source id : String) :
    Verdict → Span → Prop
  | leads {shown' : Appearance} {target : Target} {title : Option String}
      (h : shown.Alike shown') :
      Shows shown source id (.leads target title) (shown'.toSpan target title)
  | fails {shown' : Appearance} {fallback : Span} {failure : Failure}
      (h : shown.Alike shown') (hfallback : shown'.Refers source fallback) :
      Shows shown source id (.fails failure) (.invalid fallback failure.problem)
  | unresolved {shown' : Appearance} {fallback : Span}
      (h : shown.Alike shown') (hfallback : shown'.Refers source fallback) :
      Shows shown source id .unresolved
        (.invalid fallback (shown.unresolved id).problem)

end Appearance

/-- A pass may turn the text of the one into that of the other. -/
inductive Scope.Rewrites (s : Scope) : Appearance → Appearance → Prop
  | link {content content' : List Span} {problems : List Problem}
      (h : Spans.Yields s content content' problems) :
      Rewrites s (.link content) (.link content')
  | image {alt : String} : Rewrites s (.image alt) (.image alt)

namespace Scope.Rewrites

variable {s s' : Scope} {shown shown' shown'' : Appearance}

theorem alike (h : s.Rewrites shown shown') : shown.Alike shown' := by
  cases h with
  | link h => exact .link h.becomes_once
  | image => exact .image

theorem alike_trans (h : s.Rewrites shown shown')
    (h' : s'.Rewrites shown' shown'') : shown.Alike shown'' := by
  cases h with
  | link h =>
      cases h' with
      | link h' => exact .link (h.becomes (fun _ _ _ _ _ _ _ _ => trivial) h')
  | image =>
      cases h' with
      | image => exact .image

theorem unresolved_eq (h : s.Rewrites shown shown') :
    shown'.unresolved = shown.unresolved := by
  cases h <;> rfl

end Scope.Rewrites

/-! ## One pass over a link or an image -/

namespace Span.Yields

variable {s : Scope} {shown : Appearance} {source : String} {out : Span}
  {problems : List Problem}

theorem of_byId {id : String}
    (h : Span.Yields s (shown.byId id source) out problems) :
    ∃ shown' outcome problems', s.Rewrites shown shown'
      ∧ s.AnswersReference id outcome
      ∧ s.SettlesId shown' id source outcome out problems' := by
  cases shown with
  | link content =>
      cases h with
      | reference h =>
          cases h with
          | linkId hcontent hanswer hsettles =>
              exact ⟨_, _, _, .link hcontent, hanswer, hsettles⟩
  | image alt =>
      cases h with
      | reference h =>
          cases h with
          | imageId hanswer hsettles =>
              exact ⟨_, _, _, .image, hanswer, hsettles⟩

theorem of_byPath {path : WrittenPath} {title : Option String}
    (h : Span.Yields s (shown.byPath path title source) out problems) :
    s.SettlesPath shown path title source out problems := by
  cases shown with
  | link content =>
      cases h with
      | reference h =>
          cases h with
          | linkPath hsettles => exact hsettles
  | image alt =>
      cases h with
      | reference h =>
          cases h with
          | imagePath hsettles => exact hsettles

theorem of_toSpan {target : Target} {title : Option String}
    (h : Span.Yields s (shown.toSpan target title) out problems) :
    ∃ shown', s.Rewrites shown shown' ∧ out = shown'.toSpan target title := by
  cases shown with
  | link content =>
      cases h with
      | link hcontent => exact ⟨_, .link hcontent, rfl⟩
  | image alt =>
      cases h with
      | image => exact ⟨_, .image, rfl⟩

theorem of_invalid {fallback : Span} {problem : Problem}
    (h : Span.Yields s (.invalid fallback problem) out problems) :
    out = .invalid fallback problem := by
  cases h
  rfl

end Span.Yields

/-! ## Both passes over a reference -/

/-- No alias of the document stands for the empty id. -/
def Document.NamesAliases (d : Document) : Prop :=
  ∀ id, (id, .indirection "") ∉ d.firstScope.index.linkDefinitions.declared

theorem Scope.mem_of_aliasTarget?_eq_some {s : Scope} {id target : String}
    (h : s.aliasTarget? id = some target) :
    (id, .indirection target) ∈ s.index.linkDefinitions.declared := by
  unfold aliasTarget? at h
  split at h
  · rename_i hentry
    obtain rfl := Option.some.inj h
    exact Namespace.mem_of_entry?_eq_unique hentry
  · cases h

/-- A chain from a name ends with a name. -/
theorem Document.NamesAliases.last_ne_empty {d : Document} (h : d.NamesAliases)
    {n : Nat} {id last : String} (hlead : d.firstScope.Leads n id last)
    (hid : id ≠ "") : last ≠ "" := by
  induction hlead with
  | here _ => exact hid
  | onward hsome _ ih =>
      refine ih ?_
      rintro rfl
      exact h _ (Scope.mem_of_aliasTarget?_eq_some hsome)

namespace DocumentRoot

/-- What becomes of a reference by id in `d` whose chain of aliases ends
within reach: what the verdict on the end of the chain says. -/
def Settles (r : DocumentRoot) (d : Document) (kind : ReferenceKind)
    (source : String) (out : Span) : Prop :=
  ∀ (shown : Appearance) (id last : String) (n : Nat),
    Span.reference kind source = shown.byId id source → id ≠ "" →
    d.firstScope.Leads n id last → n < Failure.maxAliasDepth →
    shown.Shows source last (r.verdict d last) out

variable {r : DocumentRoot} {d : Document} {shown shown' : Appearance}
  {source id : String} {out : Span} {problems : List Problem}

theorem shows_of_settlesPath (hpaths : (r.documents.map Document.path).Nodup)
    {path : WrittenPath} {title : Option String} (halike : shown.Alike shown')
    (h : (d.secondScope r.settledIndex).SettlesPath shown' path title source out
      problems) :
    shown.Shows source id (r.validated d path title) out := by
  rw [validated_eq hpaths]
  cases h with
  | resolved hpath =>
      rw [hpath]
      exact .leads halike
  | deferred hpath => exact absurd hpath (Scope.resolvePath_ne_deferred rfl path)
  | failed hpath =>
      rw [hpath]
      exact .fails halike .byPath

/-- A name that the first phase puts off is decided by the second one. -/
theorem shows_of_foreign (hpaths : (r.documents.map Document.path).Nodup)
    (hplain : d.path.fragment = none) (hid : id ≠ "")
    (hnone : d.firstScope.aliasTarget? id = none)
    (hforeign : d.firstScope.Foreign id)
    (hshown : d.firstScope.Rewrites shown shown')
    (h : Span.Yields (d.secondScope r.settledIndex) (shown'.byId id source) out
      problems) :
    shown.Shows source id (r.verdict d id) out := by
  obtain ⟨final, outcome, _, hfinal, hanswer, hsettles⟩ := h.of_byId
  have halike := hshown.alike_trans hfinal
  have hfinds : (d.secondScope r.settledIndex).Finds id outcome := by
    rw [Scope.AnswersReference, if_neg hid] at hanswer
    rw [hanswer.of_aliasTarget?_eq_none
      (d.aliasTarget?_secondScope r.settledIndex hnone hforeign)]
    exact Scope.finds_outcomeOf _ id
  rw [verdict_secondScope hpaths hplain hnone hforeign hfinds]
  cases hsettles with
  | external => exact .leads halike
  | target => exact .leads halike
  | path hpath => exact shows_of_settlesPath hpaths halike hpath
  | deferred => exact absurd hfinds (Scope.Finds.ne_deferred rfl)
  | missing =>
      cases hfinds
      rw [hfinal.unresolved_eq, hshown.unresolved_eq]
      exact .unresolved halike .byId
  | failed => exact .fails halike .byId

/-- A path that the first phase finds for an id. -/
theorem shows_of_path (hpaths : (r.documents.map Document.path).Nodup)
    {path : WrittenPath} {title : Option String} {middle : Span}
    {first second : List Problem} (hshown : d.firstScope.Rewrites shown shown')
    (h : d.firstScope.SettlesPath shown' path title source middle first)
    (h' : Span.Yields (d.secondScope r.settledIndex) middle out second) :
    shown.Shows source id (r.validated d path title) out := by
  by_cases hlater : d.firstScope.resolvePath path = .deferred
  · cases h with
    | deferred _ => exact shows_of_settlesPath hpaths hshown.alike h'.of_byPath
    | resolved hpath => rw [hlater] at hpath; cases hpath
    | failed hpath => rw [hlater] at hpath; cases hpath
  · obtain ⟨target, hnow, hverdict⟩ := validated_firstScope hlater r title
    rw [hverdict]
    cases h with
    | deferred hpath => exact absurd hpath hlater
    | failed hpath => rw [hnow] at hpath; cases hpath
    | resolved hpath =>
        rw [hnow] at hpath
        cases hpath
        obtain ⟨final, hfinal, rfl⟩ := h'.of_toSpan
        exact .leads (hshown.alike_trans hfinal)

/-- Both phases together settle every reference by id. -/
theorem allows_settles (hpaths : (r.documents.map Document.path).Nodup)
    (hplain : d.path.fragment = none) (hnames : d.NamesAliases) :
    d.firstScope.Allows (d.secondScope r.settledIndex) (r.Settles d) := by
  intro kind source middle out first second hfirst hsecond shown id last n heq hid
    hlead hreach
  have hspan : Span.Yields d.firstScope (shown.byId id source) middle first :=
    heq ▸ .reference hfirst
  obtain ⟨shown', outcome, _, hshown, hanswer, hsettles⟩ := hspan.of_byId
  rw [Scope.AnswersReference, if_neg hid] at hanswer
  have hfinds : d.firstScope.Finds last outcome := by
    rw [hanswer.eq_outcomeOf hlead hreach]
    exact Scope.finds_outcomeOf _ last
  have hnone := hlead.last_ne_alias
  cases hsettles with
  | external =>
      obtain ⟨final, hfinal, rfl⟩ := hsecond.of_toSpan
      rw [verdict_firstScope hnone hfinds (by simp)]
      exact .leads (hshown.alike_trans hfinal)
  | target =>
      obtain ⟨final, hfinal, rfl⟩ := hsecond.of_toSpan
      rw [verdict_firstScope hnone hfinds (by simp)]
      exact .leads (hshown.alike_trans hfinal)
  | path hpath =>
      rw [verdict_firstScope hnone hfinds (by simp)]
      exact shows_of_path hpaths hshown hpath hsecond
  | deferred =>
      cases hfinds with
      | deferred hforeign _ =>
          exact shows_of_foreign hpaths hplain
            (hnames.last_ne_empty hlead hid) hnone hforeign hshown hsecond
  | missing =>
      cases hfinds with
      | missing _ htree _ _ => cases htree
  | failed =>
      rw [verdict_firstScope hnone hfinds (by simp), hsecond.of_invalid]
      exact .fails hshown.alike .byId

/-- Every reference by id that the passes reach, outside the text of other
references, comes to the verdict on the end of its chain of aliases. -/
theorem resolve_follows_verdicts (r : DocumentRoot) (workers : Nat)
    (hpaths : (r.documents.map Document.path).Nodup)
    (hplain : ∀ d ∈ r.documents, d.path.fragment = none)
    (hnames : ∀ d ∈ r.documents, d.NamesAliases) :
    List.Forall₂ (fun d final => final.path = d.path
        ∧ Blocks.Becomes (r.Settles d) d.outlined.content final.content)
      r.documents (r.resolve workers).root.documents := by
  rw [documents_resolve, List.forall₂_map_right_iff, List.forall₂_same]
  intro d hd
  obtain ⟨_, hfirst, -⟩ := d.yields_settled
  obtain ⟨_, hsecond, -⟩ := d.yields_finished r.settledIndex
  exact ⟨rfl, hfirst.becomes
    (allows_settles hpaths (hplain d hd) (hnames d hd)) hsecond⟩

/-- References that each end at another place of the search: at a definition
behind an alias, at an anchor, at a global target, at the nearer of two
documents, and nowhere. -/
def crossing : DocumentRoot :=
  { cover := none
    staticDocuments := []
    tree := ⟨.root, .initial, none,
      [.tree ⟨["north"], none⟩ .initial none
        [.document
          { path := ⟨["north", "pier.md"], none⟩
            config :=
              { Config.initial with
                globalTargets := ⟨[("quay", .external "http://elsewhere"),
                  ("tide", .external "http://tide")]⟩ }
            content :=
              [.linkAlias ⟨"way", "ferry"⟩,
                .linkDefinition ⟨"ferry", .external "http://ferry", none⟩,
                .anchor "ferry",
                .anchor "quay",
                .paragraph
                  [.reference (.linkId [] "way") "[](way)",
                    .reference (.linkId [] "quay") "[](quay)",
                    .reference (.imageId "tide" "tide") "![tide](tide)",
                    .reference (.linkId [] "buoy") "[](buoy)",
                    .reference (.linkId [] "shoal") "[](shoal)"]] },
          .document ⟨⟨["north", "sound.md"], none⟩, .initial, [.anchor "buoy"]⟩],
        .document ⟨⟨["south.md"], none⟩, .initial, [.anchor "buoy"]⟩]⟩ }

theorem resolve_follows_verdicts_crossing :
    ((crossing.resolve 3).root.documents.map Document.content).head?
        = some
          [.anchor "ferry", .anchor "quay",
            .paragraph
              [.link [] (.external "http://ferry") none,
                .link [] (.internal ⟨⟨["north", "pier.md"], some "quay"⟩, none,
                  ⟨0, [], some "quay"⟩⟩) none,
                .image "tide" (.external "http://tide") none,
                .link [] (.internal ⟨⟨["north", "sound.md"], some "buoy"⟩, none,
                  ⟨0, ["sound.md"], some "buoy"⟩⟩) none,
                .invalid (.reference (.linkId [] "shoal") "[](shoal)")
                  (Failure.unresolvedLink "shoal").problem]]
      ∧ List.Forall₂ (fun d final => final.path = d.path
          ∧ Blocks.Becomes (crossing.Settles d) d.outlined.content final.content)
        crossing.documents (crossing.resolve 3).root.documents := by
  have hall : ∀ P : Document → Prop, P crossing.documents[0] →
      P crossing.documents[1] → P crossing.documents[2] →
      ∀ d ∈ crossing.documents, P d :=
    fun P hpier hsound hsouth => List.forall_mem_cons.mpr
      ⟨hpier, List.forall_mem_cons.mpr ⟨hsound, List.forall_mem_singleton.mpr hsouth⟩⟩
  refine ⟨?_, resolve_follows_verdicts crossing 3 (by decide)
    (hall _ rfl rfl rfl) (hall _ ?_ ?_ ?_)⟩
  · rw [documents_resolve]
    rfl
  · intro id hmem
    have hdeclared : (id, DefinitionEntry.indirection "")
        ∈ [("way", .indirection "ferry"),
          ("ferry", .target ⟨.external "http://ferry", none⟩)] := hmem
    simp at hdeclared
  · intro id hmem
    cases hmem
  · intro id hmem
    cases hmem

end DocumentRoot

end Crosslink
