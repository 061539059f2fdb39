import Crosslink.Proofs.Markdown
import Crosslink.Proofs.PathText
import Crosslink.Proofs.Position
import Crosslink.Proofs.SinglePass
import Crosslink.Proofs.Sources

/-!
# Destinations outside the tree

An address can stand in a link or an image by path, or in a definition that
a link or an image by id refers to. `Document.Settles` and `Document.Misses`
follow one such form through both phases, wherever it stands in a document;
`Document.ComesTo` says what is left of a page. `Document.LeadsOut`
compares the forms: links by path lead to the address, and so do links and
images by id. In an image by path the address is read as a path, and only a
path that climbs above the root is resolved to an address
(`Scope.resolvePath_eq_external`). Such a path begins with a dot and an
address does not, so an image by path never leads there. `resolve_external`
says this of all documents of a tree.
-/

namespace Crosslink

open Markdown

/-! ## Paths that leave the tree -/

/-- A path that climbs begins with a dot. -/
theorem RelativePath.toText_of_ascents {p : RelativePath} (h : p.ascents ≠ 0) :
    ∃ text, p.toText.toList = '.' :: text := by
  obtain ⟨count, hcount⟩ := Nat.exists_eq_succ_of_ne_zero h
  have hparts : p.parts = ['.', '.'] :: (List.replicate count ['.', '.']
      ++ p.segments.map String.toList) := by
    rw [parts, hcount]
    rfl
  rw [toList_toText h, hparts]
  cases List.replicate count ['.', '.'] ++ p.segments.map String.toList <;>
    simp

/-- Only a path above the root is resolved to an address. -/
theorem Scope.resolvePath_eq_external {s : Scope} {path : WrittenPath} {url : String}
    (h : s.resolvePath path = .resolved (.external url)) :
    ∃ text, url.toList = '.' :: text := by
  unfold resolvePath at h
  split at h
  · rename_i climbing hplace
    cases path with
    | absolute path => cases hplace
    | relative path =>
        cases h
        have hascents : path.ascents ≠ 0 := by
          intro hzero
          simp only [locate, AbsolutePath.resolveFromDocument, AbsolutePath.resolve,
            hzero, Nat.not_lt_zero] at hplace
          split at hplace <;> cases hplace
        exact RelativePath.toText_of_ascents hascents
  · split at h
    · cases h
    · rename_i tree _
      unfold checkPath at h
      split at h
      · cases h
      · split at h
        · cases h
        · split at h <;> cases h

/-! ## What is left of a page -/

namespace Document

variable {d : Document} {spans : List Span}

/-- Both phases leave nothing but this paragraph, and report nothing. -/
structure ComesTo (d : Document) (tree : TreeIndex) (spans : List Span) : Prop where
  content : (d.finished tree).content = [.paragraph spans]
  reports : d.reports tree = []

theorem run_paragraph (s : Scope) (h : Spans.pending spans = []) :
    s.run [.paragraph spans] = ([.paragraph spans], []) := by
  simp only [Scope.run, Scope.resolveBlocks, Scope.resolveBlock,
    s.resolveSpans_eq_pure spans h]
  rfl

/-- The second phase leaves what holds no references. -/
theorem comesTo_of_run
    (h : d.firstScope.run d.outlined.content = ([.paragraph spans], []))
    (hplain : Spans.pending spans = []) (tree : TreeIndex) : d.ComesTo tree spans := by
  have hsettled : d.settled.content = [.paragraph spans] := congrArg Prod.fst h
  have hlocal : d.localPhase.2 = [] := congrArg Prod.snd h
  have hglobal :
      (d.secondScope tree).run d.settled.content = ([.paragraph spans], []) := by
    rw [hsettled]
    exact run_paragraph _ hplain
  have hfinished : (d.settled.globalPhase tree).2 = [] := congrArg Prod.snd hglobal
  exact ⟨congrArg Prod.fst hglobal, by rw [reports, hlocal, hfinished]; rfl⟩

/-- A paragraph without references is left as it is. -/
theorem comesTo_paragraph (h : d.content = [.paragraph spans])
    (hplain : Spans.pending spans = []) (tree : TreeIndex) : d.ComesTo tree spans := by
  have houtline : d.outlined.content = [.paragraph spans] := by
    rw [outlined, h]
    rfl
  refine comesTo_of_run ?_ hplain tree
  rw [houtline]
  exact run_paragraph _ hplain

end Document

/-! ## References through a definition -/

namespace Scope

variable {s : Scope}

/-- What an id stands for that has one definition, an external one. -/
theorem outcomeOf_defined {id url : String} {title : Option String}
    (h : s.index.linkDefinitions.entry? id
      = some (.unique (.target ⟨.external url, title⟩))) :
    s.aliasTarget? id = none ∧ s.outcomeOf id = .found (.external url title) := by
  rw [aliasTarget?, outcomeOf, h]
  exact ⟨rfl, rfl⟩

theorem lookUpId_defined {id url : String} (hid : id ≠ "")
    (h : s.index = .ofDeclarations [.ofDefinition ⟨id, .external url, none⟩]) :
    s.lookUpId id {}
      = (.found (.external url none),
          { cache := [(id, .found (.external url none))] }) := by
  have hentry : s.index.linkDefinitions.entry? id
      = some (.unique (.target ⟨.external url, none⟩)) := by
    rw [h, Declaration.ofDefinition, if_neg hid]
    simp [DocumentIndex.ofDeclarations, Declaration.definition?, Namespace.entry?,
      Namespace.values]
  obtain ⟨hnone, houtcome⟩ := outcomeOf_defined hentry
  have hlook : s.lookUp id [] = _ :=
    follow_of_last (settled_of_new rfl List.not_mem_nil) hnone _
  rw [lookUpId, hlook, houtcome]
  rfl

/-- In a document with one definition, which may be anonymous, the first
reference to it comes to its address. -/
theorem resolveId_defined {id url : String}
    (h : s.index = .ofDeclarations [.ofDefinition ⟨id, .external url, none⟩])
    (shown : Appearance) (source : String) :
    ∃ state : PassState, s.resolveId shown id source {}
        = (shown.toSpan (.external url) none, state) ∧ state.diagnostics = [] := by
  by_cases hid : id = ""
  · have hfirst : s.index.anonymous[0]? = some ⟨.external url, none⟩ := by
      rw [h, hid]
      rfl
    have hanswer : s.nextAnonymous {}
        = (.found (.external url none), { anonymousNext := 1 }) := by
      simp only [nextAnonymous, hfirst]
      rfl
    refine ⟨{ anonymousNext := 1 }, ?_, rfl⟩
    simp only [resolveId, hid, if_true, bind, StateT.bind, hanswer, settleId]
    rfl
  · have hanswer := lookUpId_defined hid h
    refine ⟨{ cache := [(id, .found (.external url none))] }, ?_, rfl⟩
    simp only [resolveId, hid, if_false, bind, StateT.bind, hanswer, settleId]
    rfl

/-- An external definition in front of a block disappears. -/
theorem run_defined {id url : String} {block out : Block} {state : PassState}
    (hblock : s.resolveBlock block {} = (some out, state)) :
    s.run [.linkDefinition ⟨id, .external url, none⟩, block]
      = ([out], state.diagnostics) := by
  have hblocks : s.resolveBlocks [.linkDefinition ⟨id, .external url, none⟩, block] {}
      = ([out], state) := by
    rw [resolveBlocks, resolveBlock, resolveDefinition]
    simp only [pure_bind, resolveBlocks]
    simp only [bind, StateT.bind, hblock]
    rfl
  simp only [run, StateT.run, hblocks]

end Scope

/-! ## Images by path -/

theorem Scope.eq_of_blockOfSpan {span out : Span}
    (h : blockOfSpan span = .paragraph [out]) : span = out := by
  unfold blockOfSpan at h
  split at h
  · cases h
  · cases h
  · cases h
  · exact (List.cons.inj (Block.paragraph.inj h)).1

/-- No path is resolved to what is written as an address. -/
theorem Scope.resolvePath_ne_address {destination : List Char}
    (hd : IsAddress destination) (s : Scope) (path : WrittenPath) :
    s.resolvePath path ≠ .resolved (.external (String.ofList destination)) := by
  intro hresolved
  obtain ⟨text, htext⟩ := resolvePath_eq_external hresolved
  rw [String.toList_ofList] at htext
  rcases hd.cases with ⟨host, rfl⟩ | ⟨c, scheme, rest, rfl, hc⟩
  · cases htext
  · cases htext
    cases hc

/-- Two passes do not lead an image by path to an address either. -/
theorem Scope.SettlesPath.ne_image_twice {s s' : Scope} {alt source : String}
    {path : WrittenPath} {middle : Span} {first second : List Problem}
    (h : s.SettlesPath (.image alt) path none source middle first)
    {destination : List Char} (hd : IsAddress destination) :
    ¬ Span.Yields s' middle
      (.image alt (.external (String.ofList destination)) none) second := by
  intro hsecond
  cases h with
  | resolved hpath =>
      cases hsecond
      exact resolvePath_ne_address hd s path hpath
  | failed _ => cases hsecond
  | deferred _ =>
      -- The second pass sees the same path again.
      generalize hout : Span.image alt _ none = out at hsecond
      cases hsecond.of_byPath with
      | resolved hpath =>
          cases hout
          exact resolvePath_ne_address hd s' path hpath
      | deferred _ => cases hout
      | failed _ => cases hout

namespace Markdown.Caption

variable {caption : Caption}

/-- Nothing in a caption has to be resolved. -/
theorem pending_inline (h : caption.Legible) :
    match caption with
    | link text => Spans.pending (inline text) = []
    | image _ => True := by
  cases caption with
  | link text => exact Spans.collect_outsideInvalid (Markdown.pending_inline text h.1)
  | image alt => trivial

theorem pending_shown (h : caption.Legible) (target : Target) (title : Option String) :
    (caption.shown.toSpan target title).pending = [] := by
  cases caption with
  | link text => simpa [shown, Appearance.toSpan] using pending_inline h
  | image alt => simp [shown, Appearance.toSpan]

/-- A pass over a reference by id whose answer is an address. -/
theorem eq_of_yields (h : caption.Legible) {s : Scope} {id url source : String}
    {title : Option String} {out : Span} {problems : List Problem} (hid : id ≠ "")
    (hdefined : s.index.linkDefinitions.entry? id
      = some (.unique (.target ⟨.external url, title⟩)))
    (hyields : Span.Yields s (caption.shown.byId id source) out problems) :
    out = caption.shown.toSpan (.external url) title ∧ problems = [] := by
  obtain ⟨hnone, houtcome⟩ := Scope.outcomeOf_defined hdefined
  have hfound : ∀ outcome, s.AnswersReference id outcome →
      outcome = .found (.external url title) := by
    intro outcome hanswer
    rw [Scope.AnswersReference, if_neg hid] at hanswer
    rw [hanswer.of_aliasTarget?_eq_none hnone, houtcome]
  cases caption with
  | link text =>
      cases hyields with
      | reference hkind =>
          cases hkind with
          | linkId hcontent hanswer hsettles =>
              obtain ⟨rfl, rfl⟩ := hcontent.eq_of_pending_eq_nil (pending_inline h)
              cases hfound _ hanswer
              cases hsettles
              exact ⟨rfl, rfl⟩
  | image alt =>
      cases hyields with
      | reference hkind =>
          cases hkind with
          | imageId hanswer hsettles =>
              cases hfound _ hanswer
              cases hsettles
              exact ⟨rfl, rfl⟩

/-- A paragraph that is a reference by id becomes one that is a link or an
image. -/
theorem resolveBlock_alone (h : caption.Legible) (s : Scope) {id source : String}
    {target : Target} {title : Option String} {state state' : PassState}
    (hspan : s.resolveId caption.shown id source state
      = (caption.shown.toSpan target title, state')) :
    s.resolveBlock (caption.alone (caption.shown.byId id source)) state
      = (some (.paragraph [caption.shown.toSpan target title]), state') := by
  cases caption with
  | link text =>
      have htext := s.resolveSpans_eq_pure _ (pending_inline h)
      simp only [shown, alone, Appearance.byId, Appearance.toSpan,
        Scope.resolveBlock, Scope.resolveSpans, Scope.resolveSpan,
        Scope.resolveReference, htext, pure_bind] at hspan ⊢
      simp only [bind, StateT.bind, hspan]
      rfl
  | image alt =>
      simp only [shown, alone, Appearance.byId, Appearance.toSpan,
        Scope.blockOfSpan, Scope.resolveBlock, Scope.resolveReference] at hspan ⊢
      simp only [bind, StateT.bind, hspan]
      rfl

end Markdown.Caption

namespace Document

variable {d : Document} {caption : Caption} {destination : List Char}

/-- A page of a definition and a reference to it. -/
theorem comesTo_defined (h : caption.Legible) {id url source : String}
    (hcontent : d.content = [.linkDefinition ⟨id, .external url, none⟩,
      caption.alone (caption.shown.byId id source)]) (tree : TreeIndex) :
    d.ComesTo tree [caption.shown.toSpan (.external url) none] := by
  have houtline : d.outlined.content = d.content := by
    rw [outlined, hcontent]
    cases caption <;> rfl
  have hindex : d.firstScope.index
      = .ofDeclarations [.ofDefinition ⟨id, .external url, none⟩] := by
    rw [firstScope, houtline, hcontent]
    cases caption <;> rfl
  obtain ⟨state, hspan, hreports⟩ :=
    Scope.resolveId_defined hindex caption.shown source
  have hblock := caption.resolveBlock_alone h d.firstScope hspan
  refine comesTo_of_run ?_ (by simp [caption.pending_shown h]) tree
  rw [houtline, hcontent]
  rw [Scope.run_defined hblock, hreports]

/-- A page of a link by path. -/
theorem comesTo_link {text : List Char} (h : (Caption.link text).Legible) {url : String}
    (hcontent : d.content = [.paragraph [.link (inline text) (.external url) none]])
    (tree : TreeIndex) :
    d.ComesTo tree [.link (inline text) (.external url) none] :=
  comesTo_paragraph hcontent
    (by simpa [Caption.shown, Appearance.toSpan] using
      Caption.pending_shown h (.external url) none) tree

/-- Whatever both phases make of the span, wherever it stands in the document,
is `out`, and they report nothing. -/
def Settles (d : Document) (tree : TreeIndex) (span out : Span) : Prop :=
  ∀ middle after first second, Span.Yields d.firstScope span middle first →
    Span.Yields (d.secondScope tree) middle after second →
      after = out ∧ first = [] ∧ second = []

/-- Whatever both phases make of the span, wherever it stands in the document,
is not `out`. -/
def Misses (d : Document) (tree : TreeIndex) (span out : Span) : Prop :=
  ∀ middle after first second, Span.Yields d.firstScope span middle first →
    Span.Yields (d.secondScope tree) middle after second → after ≠ out

/-- An image by path never comes to the address. -/
theorem misses_image (hd : IsAddress destination) (d : Document) (tree : TreeIndex)
    (alt source : String) :
    d.Misses tree (Lexeme.pathReference (.imagePath alt · none) destination source)
      (.image alt (.external (String.ofList destination)) none) := by
  intro middle after first second hfirst hsecond
  unfold Lexeme.pathReference at hfirst
  split at hfirst
  · cases hfirst with
    | reference hkind =>
        cases hkind with
        | imagePath hpath =>
            rintro rfl
            exact hpath.ne_image_twice hd hsecond
  · obtain ⟨rfl, -⟩ := hfirst.eq_of_pending_eq_nil (by simp)
    obtain ⟨rfl, -⟩ := hsecond.eq_of_pending_eq_nil (by simp)
    nofun

/-- A page of an image by path never comes to the address. -/
theorem finished_ne_image (hd : IsAddress destination) {alt source : String}
    (hcontent : d.content = [Scope.blockOfSpan
      (Lexeme.pathReference (.imagePath alt · none) destination source)])
    (tree : TreeIndex) :
    (d.finished tree).content
      ≠ [.paragraph [.image alt (.external (String.ofList destination)) none]] := by
  have hmisses := misses_image hd d tree alt source
  unfold Lexeme.pathReference at hcontent hmisses
  split at hcontent
  · rename_i path hpath
    rw [hpath] at hmisses
    have houtline :
        d.outlined.content = [.reference (.imagePath alt path none) source] := by
      rw [outlined, hcontent]
      rfl
    obtain ⟨_, hfirst, -⟩ := d.yields_settled
    obtain ⟨_, hsecond, -⟩ := d.yields_finished tree
    rw [houtline] at hfirst
    -- Here the image is a block of its own, but it is resolved as a span is.
    obtain ⟨_, hsettled, hblock⟩ := hfirst.singleton
    cases hblock with
    | reference hkind =>
        rw [hsettled] at hsecond
        obtain ⟨after, hafter, hfinished⟩ := Blocks.Yields.of_blockOfSpan hsecond
        rw [hfinished]
        intro heq
        exact hmisses _ _ _ _ (.reference hkind) hafter
          (Scope.eq_of_blockOfSpan (List.cons.inj heq).1)
  · have hplain : d.ComesTo tree _ := comesTo_paragraph hcontent (by simp) tree
    rw [hplain.content]
    simp

/-- A link or image that is finished stays so. -/
theorem settles_shown (h : caption.Legible) (target : Target) (title : Option String)
    (tree : TreeIndex) :
    d.Settles tree (caption.shown.toSpan target title)
      (caption.shown.toSpan target title) := by
  intro middle after first second hfirst hsecond
  have hplain := caption.pending_shown h target title
  obtain ⟨rfl, rfl⟩ := hfirst.eq_of_pending_eq_nil hplain
  obtain ⟨rfl, rfl⟩ := hsecond.eq_of_pending_eq_nil hplain
  exact ⟨rfl, rfl, rfl⟩

/-- A reference to the one definition of its id. -/
theorem settles_defined (h : caption.Legible) {id url : String}
    {title : Option String} (hid : id ≠ "")
    (hdefined : d.definitionsOf id = [.target ⟨.external url, title⟩])
    (source : String) (tree : TreeIndex) :
    d.Settles tree (caption.shown.byId id source)
      (caption.shown.toSpan (.external url) title) := by
  intro middle after first second hfirst hsecond
  have hentry := Namespace.entry?_eq_unique.mpr hdefined
  obtain ⟨rfl, rfl⟩ := caption.eq_of_yields h hid hentry hfirst
  obtain ⟨rfl, rfl⟩ := hsecond.eq_of_pending_eq_nil (caption.pending_shown h _ _)
  exact ⟨rfl, rfl, rfl⟩

end Document

/-! ## The forms compared -/

namespace Markdown.Caption

def isLink : Caption → Bool
  | link _ => true
  | image _ => false

/-- The link or image that leads to an address outside the tree. -/
def outside (caption : Caption) (destination : List Char) : Span :=
  caption.shown.toSpan (.external (String.ofList destination)) none

theorem toSpan_byPath_link {destination : List Char} (hd : IsAddress destination)
    (text : List Char) (source : String) :
    ((link text).byPath destination).toSpan
        (inline ((link text).byPath destination).inner) source
      = (link text).outside destination := by
  simp only [byPath, Lexeme.toSpan, hd.external, if_true]
  rfl

end Markdown.Caption

/-- Where the forms of a link or an image with an external destination lead in
the document `d`, of which resolving leaves `final` and reports
`diagnostics`. -/
structure Document.LeadsOut (d : Document) (tree : TreeIndex) (caption : Caption)
    (destination : List Char) (final : Document) (diagnostics : List Diagnostic) :
    Prop where
  /-- A link by path, wherever the text of the document goes on after it. -/
  link : caption.isLink = true → ∀ rest, ∃ span,
    Markdown.inline (caption.pathText destination ++ rest)
        = span :: Markdown.inline rest
      ∧ d.Settles tree span (caption.outside destination)
  /-- An image by path, wherever the text of the document goes on after it. -/
  image : caption.isLink = false → ∀ rest, ∃ span,
    Markdown.inline (caption.pathText destination ++ rest)
        = span :: Markdown.inline rest
      ∧ d.Misses tree span (caption.outside destination)
  /-- A link or an image by id, if the document has one definition of it. -/
  reference : ∀ id written, IsLabel id → id ≠ ['_'] → ']' ∉ written →
    referenceId written caption.plain = definitionId (inBrackets id) →
    d.definitionsOf (String.ofList id)
      = [.target ⟨.external (String.ofList destination), none⟩] →
    ∀ rest, ∃ span,
      Markdown.inline (caption.idText written ++ rest) = span :: Markdown.inline rest
      ∧ d.Settles tree span (caption.outside destination)
  /-- A page that is a definition and a reference to it. -/
  definition : ∀ source id written, IsLabel id → ']' ∉ written →
    referenceId written caption.plain = definitionId (inBrackets id) →
    sourceBlocks source.toList = caption.idBlocks written id destination →
    d.content = parse source →
    final.content = [.paragraph [caption.outside destination]] ∧ diagnostics = []
  /-- A page that is a form by path leads there if it is a link, and only then. -/
  path : ∀ source, sourceBlocks source.toList = caption.pathBlocks destination →
    d.content = parse source →
    (final.content = [.paragraph [caption.outside destination]] ↔ caption.isLink = true)
      ∧ (caption.isLink = true → diagnostics = [])

namespace Document

variable {d : Document} {caption : Caption} {destination : List Char}

theorem content_path (h : caption.Legible) (hd : IsAddress destination)
    {source : String}
    (hblocks : sourceBlocks source.toList = caption.pathBlocks destination)
    (hcontent : d.content = parse source) (tree : TreeIndex) :
    ((d.finished tree).content = [.paragraph [caption.outside destination]]
        ↔ caption.isLink = true)
      ∧ (caption.isLink = true → d.reports tree = []) := by
  rw [parse, hblocks, caption.toBlocks_pathBlocks h hd] at hcontent
  cases caption with
  | link text =>
      rw [Caption.toSpan_byPath_link hd] at hcontent
      have hpage := comesTo_link h hcontent tree
      exact ⟨⟨fun _ => rfl, fun _ => hpage.content⟩, fun _ => hpage.reports⟩
  | image alt =>
      have hnever := finished_ne_image hd hcontent tree
      exact ⟨⟨fun heq => absurd heq hnever, nofun⟩, nofun⟩

theorem leadsOut (d : Document) (tree : TreeIndex) (h : caption.Legible)
    (hd : IsAddress destination) :
    d.LeadsOut tree caption destination (d.finished tree) (d.reports tree) where
  link hlink rest := by
    refine ⟨_, caption.inline_byPath h hd rest, ?_⟩
    cases caption with
    | link text =>
        rw [Caption.toSpan_byPath_link hd]
        exact settles_shown h _ _ tree
    | image alt => cases hlink
  image himage rest := by
    refine ⟨_, caption.inline_byPath h hd rest, ?_⟩
    cases caption with
    | link text => cases himage
    | image alt => exact misses_image hd d tree _ _
  reference id written hid hname hwritten hmeans hdefined rest := by
    refine ⟨_, caption.inline_byId h hwritten rest, ?_⟩
    rw [hmeans, hid.definitionId_inBrackets, if_neg hname]
    exact settles_defined h (by simpa using hid.ne_nil) hdefined _ tree
  definition source id written hid hwritten hmeans hblocks hcontent := by
    rw [parse, hblocks, caption.toBlocks_idBlocks h hid hd hwritten, hmeans] at hcontent
    have hpage := comesTo_defined h hcontent tree
    exact ⟨hpage.content, hpage.reports⟩
  path source hblocks hcontent := content_path h hd hblocks hcontent tree

end Document

namespace DocumentRoot

/-- External destinations lead out of the tree in a link by path, and in links
and images by id; in an image by path they never do. -/
theorem resolve_external {r : DocumentRoot}
    (hpaths : (r.documents.map Document.path).Nodup) (workers : Nat)
    {caption : Caption} {destination : List Char} (h : caption.Legible)
    (hd : IsAddress destination) :
    (caption.OnLine →
        sourceBlocks (caption.pathSource destination) = caption.pathBlocks destination
        ∧ ∀ id written, IsLabel id → IsLine id → IsLine written →
          isPrintable destination = true →
          sourceBlocks (caption.idSource written id destination)
            = caption.idBlocks written id destination)
      ∧ List.Forall₂ (fun d final =>
          d.LeadsOut r.settledIndex caption destination final
            ((r.resolve workers).diagnostics.filter (·.path = d.path)))
        r.documents (r.resolve workers).root.documents := by
  refine ⟨fun hline => ⟨caption.sourceBlocks_pathSource h hline hd, ?_⟩, ?_⟩
  · intro id written hid hidline hwritten hprint
    exact caption.sourceBlocks_idSource h hline hid hidline hd hprint hwritten
  rw [documents_resolve, List.forall₂_map_right_iff, List.forall₂_same]
  intro d hmem
  rw [filter_diagnostics_of_mem hpaths workers hmem]
  exact d.leadsOut r.settledIndex h hd

/-- Notices with the same link by path and by id. -/
def noticeBoard : DocumentRoot :=
  { cover := none
    staticDocuments := []
    tree := ⟨.root, .initial, none,
      [.document
          ⟨⟨["direct.md"], none⟩, .initial,
            parse "[tides](https://example.org/tides)\n"⟩,
        .document
          ⟨⟨["defined.md"], none⟩, .initial,
            parse "[t]: https://example.org/tides\n\n[tides][t]\n"⟩]⟩ }

/-- A page with a picture from outside the tree. -/
def farPicture : DocumentRoot :=
  { cover := none
    staticDocuments := []
    tree := ⟨.root, .initial, none,
      [.document
        ⟨⟨["a.md"], none⟩, .initial,
          parse "![boat](https://example.org/boat.png)\n"⟩]⟩ }

theorem resolve_external_noticeBoard :
    (noticeBoard.resolve 2).root.documents.map Document.content
        = [[.paragraph
              [.link [.text "tides"] (.external "https://example.org/tides") none]],
            [.paragraph
              [.link [.text "tides"] (.external "https://example.org/tides") none]]]
      ∧ ∀ path ∈ noticeBoard.documents.map Document.path,
          (noticeBoard.resolve 2).diagnostics.filter (·.path = path) = [] := by
  have hlegible : (Caption.link "tides".toList).Legible := by decide
  have hline : (Caption.link "tides".toList).OnLine := by simp [Caption.OnLine]
  have haddress : IsAddress "https://example.org/tides".toList :=
    ⟨by decide, by decide⟩
  have hlabel : IsLabel "t".toList := ⟨by decide, by decide, by decide⟩
  have hshown : (Caption.link "tides".toList).outside "https://example.org/tides".toList
      = .link [.text "tides"] (.external "https://example.org/tides") none := by
    have hpieces : pieces "tides".toList = [.plain "tides".toList] := by decide +kernel
    simp only [Caption.outside, Caption.shown, Appearance.toSpan, inline_eq_map,
      hpieces]
    rfl
  have hpaths : (noticeBoard.documents.map Document.path).Nodup := by decide
  obtain ⟨hsources, hall⟩ := resolve_external hpaths 2 hlegible haddress
  obtain ⟨hdirect, hdefined⟩ := hsources hline
  replace hdefined :=
    hdefined "t".toList "t".toList hlabel (by simp) (by simp) (by decide)
  generalize (noticeBoard.resolve 2).root.documents = finals at hall ⊢
  cases hall with
  | cons hfirst hrest =>
      cases hrest with
      | cons hsecond hrest =>
          cases hrest
          obtain ⟨hlink, hsilent⟩ :=
            hfirst.path "[tides](https://example.org/tides)\n" hdirect rfl
          obtain ⟨hpage, hsilent'⟩ :=
            hsecond.definition "[t]: https://example.org/tides\n\n[tides][t]\n" _ _
              hlabel (by decide) (hlabel.referenceId_eq _) hdefined rfl
          refine ⟨?_, List.forall_mem_cons.mpr
            ⟨hsilent rfl, List.forall_mem_singleton.mpr hsilent'⟩⟩
          rw [List.map_cons, List.map_singleton, hlink.mpr rfl, hpage, hshown]

/-- The address of a picture by path is taken for a path in the tree. -/
theorem farPicture_unresolved :
    IsAddress "https://example.org/boat.png".toList
      ∧ (farPicture.resolve 1).root.documents.map Document.content
        = [[.invalid
            (.reference
              (.imagePath "boat"
                (.relative ⟨0, ["https:", "example.org", "boat.png"], none⟩) none)
              "![boat](https://example.org/boat.png)")
            ⟨.unresolved,
              "unresolved internal reference: https:/example.org/boat.png"⟩]]
      ∧ (farPicture.resolve 1).diagnostics
        = [⟨⟨["a.md"], none⟩,
            ⟨.unresolved,
              "unresolved internal reference: https:/example.org/boat.png"⟩⟩] := by
  have haddress : IsAddress "https://example.org/boat.png".toList :=
    ⟨by decide, by decide⟩
  have hlegible : (Caption.image "boat".toList).Legible := by decide
  have hline : (Caption.image "boat".toList).OnLine := by simp [Caption.OnLine]
  have hblocks : sourceBlocks "![boat](https://example.org/boat.png)\n".toList
      = (Caption.image "boat".toList).pathBlocks "https://example.org/boat.png".toList :=
    Caption.sourceBlocks_pathSource hlegible hline haddress
  have hparse : parse "![boat](https://example.org/boat.png)\n"
      = [.reference
          (.imagePath "boat"
            (.relative ⟨0, ["https:", "example.org", "boat.png"], none⟩) none)
          "![boat](https://example.org/boat.png)"] := by
    rw [parse, hblocks, Caption.toBlocks_pathBlocks hlegible haddress]
    rfl
  refine ⟨haddress, ?_, ?_⟩
  · rw [documents_resolve]
    simp only [farPicture, hparse]
    rfl
  · decide +kernel

end DocumentRoot

end Crosslink
