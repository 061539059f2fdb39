import Crosslink.Proofs.Completion
import Crosslink.Proofs.Phases
import Mathlib.Data.List.Nodup

/-!
# Where a document stands does not matter

A pass asks the index of the tree three things: what it knows of a path,
whether a path is static, and where an anchor is found. Indexes that answer
these alike (`TreeIndex.Alike`) lead to the same pass, block by block
(`Scope.run_alike`). Two roots that hold the same documents under distinct paths
(`DocumentRoot.Rearranged`) have indexes that answer alike, because every
answer is read off the set of entries and not off their order
(`Rearranged.alike`). So every document and its diagnostics come out the same
(`DocumentRoot.resolve_rearranged`).
-/

namespace Crosslink

/-! ## Indexes that answer alike -/

/-- The two indexes answer every question of a pass in the same way. -/
structure TreeIndex.Alike (t t' : TreeIndex) : Prop where
  document? : ∀ path, t.document? path = t'.document? path
  isStatic : ∀ path, t.isStatic path = t'.isStatic path
  findAnchor : ∀ id document, t.findAnchor id document = t'.findAnchor id document

namespace Scope

variable {t t' : TreeIndex}

/-! ## Paths and ids -/

theorem resolvePath_alike (h : t.Alike t') (s : Scope) (written : WrittenPath) :
    (s.withTree t).resolvePath written = (s.withTree t').resolvePath written := by
  have hcheck : ∀ path, (s.withTree t).checkPath t written path
      = (s.withTree t').checkPath t' written path := by
    intro path
    simp only [checkPath, h.isStatic path, h.document? path]
    rfl
  have hlocate : (s.withTree t).locate written = (s.withTree t').locate written :=
    rfl
  unfold resolvePath
  rw [hlocate]
  cases (s.withTree t').locate written with
  | aboveRoot path => rfl
  | inside path => exact hcheck path

theorem outcomeOf_alike (h : t.Alike t') (s : Scope) (id : String) :
    (s.withTree t).outcomeOf id = (s.withTree t').outcomeOf id := by
  have htree : (s.withTree t).searchTree t id = (s.withTree t').searchTree t' id := by
    have hfind : t.findAnchor id (s.withTree t).document
        = t'.findAnchor id (s.withTree t').document := h.findAnchor id s.document
    unfold searchTree
    rw [hfind]
    rfl
  have hanchors : (s.withTree t).searchAnchors id
      = (s.withTree t').searchAnchors id := by
    unfold searchAnchors
    rw [index_withTree, index_withTree]
    cases s.index.anchors.entry? id with
    | none => exact htree
    | some entry => cases entry <;> rfl
  unfold outcomeOf
  rw [index_withTree, index_withTree, hanchors]
  rfl

theorem lookUp_alike (h : t.Alike t') (s : Scope) (id : String) (cache : IdCache) :
    (s.withTree t).lookUp id cache = (s.withTree t').lookUp id cache := by
  have hfollow : ∀ (room : Nat) (active : List String) (id : String) (cache : IdCache),
      (s.withTree t).follow active room id cache
        = (s.withTree t').follow active room id cache := by
    intro room
    induction room with
    | zero => exact fun _ _ _ => rfl
    | succ room ih =>
        intro active id cache
        have halias : (s.withTree t).aliasTarget? id
            = (s.withTree t').aliasTarget? id := rfl
        simp only [follow, halias, ih, outcomeOf_alike h s]
  exact hfollow _ _ _ _

/-! ## Steps that do not ask the tree -/

section

variable (s : Scope) (t : TreeIndex)

theorem resolveCitation_withTree (label source : String) :
    (s.withTree t).resolveCitation label source = s.resolveCitation label source := rfl

theorem resolveFootnote_withTree (label : FootnoteLabel) (source : String) :
    (s.withTree t).resolveFootnote label source = s.resolveFootnote label source := rfl

theorem checkAnchor_withTree (id : Option String) (block : Block) :
    (s.withTree t).checkAnchor id block = s.checkAnchor id block := rfl

theorem finishCitation_withTree (label : String) (id : Option String)
    (content : List Block) :
    (s.withTree t).finishCitation label id content
      = s.finishCitation label id content := rfl

theorem finishFootnote_withTree (place : Nat) (label : FootnoteLabel)
    (content : List Block) :
    (s.withTree t).finishFootnote place label content
      = s.finishFootnote place label content := rfl

theorem resolveDefinition_withTree (definition : LinkDefinition) :
    (s.withTree t).resolveDefinition definition = s.resolveDefinition definition := rfl

end

/-! ## Passes that go alike -/

theorem settlePath_alike (h : t.Alike t') (s : Scope) (shown : Appearance) (path : WrittenPath)
    (title : Option String) (source : String) :
    (s.withTree t).settlePath shown path title source
      = (s.withTree t').settlePath shown path title source := by
  unfold settlePath
  rw [resolvePath_alike h s]
  rfl

theorem resolveId_alike (h : t.Alike t') (s : Scope) (shown : Appearance) (id source : String) :
    (s.withTree t).resolveId shown id source
      = (s.withTree t').resolveId shown id source := by
  have hlook : (s.withTree t).lookUpId id = (s.withTree t').lookUpId id := by
    unfold lookUpId
    simp only [lookUp_alike h s]
  have hsettle : ∀ outcome, (s.withTree t).settleId shown id source outcome
      = (s.withTree t').settleId shown id source outcome := by
    intro outcome
    cases outcome with
    | found destination =>
        cases destination with
        | path path title => exact settlePath_alike h s shown path title source
        | _ => rfl
    | _ => rfl
  unfold resolveId
  simp only [hlook, hsettle]
  rfl

mutual

theorem resolveSpan_alike (h : t.Alike t') (s : Scope) : ∀ span : Span,
    (s.withTree t).resolveSpan span = (s.withTree t').resolveSpan span
  | .emphasized content => by simp only [resolveSpan, resolveSpans_alike h s content]
  | .strong content => by simp only [resolveSpan, resolveSpans_alike h s content]
  | .link content target title => by
      simp only [resolveSpan, resolveSpans_alike h s content]
  | .reference kind source => by
      simp only [resolveSpan, resolveReference_alike h s kind source]
  | .text _ => by simp only [resolveSpan]
  | .literal _ => by simp only [resolveSpan]
  | .verbatim _ _ => by simp only [resolveSpan]
  | .image _ _ _ => by simp only [resolveSpan]
  | .citationLink _ _ => by simp only [resolveSpan]
  | .footnoteLink _ _ => by simp only [resolveSpan]
  | .invalid _ _ => by simp only [resolveSpan]

theorem resolveReference_alike (h : t.Alike t') (s : Scope) :
    ∀ (kind : ReferenceKind) (source : String),
    (s.withTree t).resolveReference kind source
      = (s.withTree t').resolveReference kind source
  | .citation _, _ => by simp only [resolveReference, resolveCitation_withTree]
  | .footnote _, _ => by simp only [resolveReference, resolveFootnote_withTree]
  | .imageId _ _, _ => by simp only [resolveReference, resolveId_alike h s]
  | .imagePath _ _ _, _ => by simp only [resolveReference, settlePath_alike h s]
  | .linkId content id, source => by
      simp only [resolveReference, resolveSpans_alike h s content, resolveId_alike h s]
  | .linkPath _ _ _, _ => by simp only [resolveReference, settlePath_alike h s]

theorem resolveSpans_alike (h : t.Alike t') (s : Scope) : ∀ spans : List Span,
    (s.withTree t).resolveSpans spans = (s.withTree t').resolveSpans spans
  | [] => rfl
  | span :: spans => by
      simp only [resolveSpans, resolveSpan_alike h s span, resolveSpans_alike h s spans]

end

theorem resolveAlias_alike (h : t.Alike t') (s : Scope) (indirection : LinkAlias) :
    (s.withTree t).resolveAlias indirection
      = (s.withTree t').resolveAlias indirection := by
  have hlook : (s.withTree t).lookUpId indirection.id
      = (s.withTree t').lookUpId indirection.id := by
    unfold lookUpId
    simp only [lookUp_alike h s]
  unfold resolveAlias
  rw [hlook]
  rfl

mutual

theorem resolveBlock_alike (h : t.Alike t') (s : Scope) : ∀ block : Block,
    (s.withTree t).resolveBlock block = (s.withTree t').resolveBlock block
  | .paragraph content => by simp only [resolveBlock, resolveSpans_alike h s]
  | .codeBlock _ _ => by simp only [resolveBlock]
  | .rule => by simp only [resolveBlock]
  | .verbatim _ _ => by simp only [resolveBlock]
  | .decoratedHeader _ => by simp only [resolveBlock]
  | .header header => by
      simp only [resolveBlock, resolveSpans_alike h s, checkAnchor_withTree]
  | .title title => by
      simp only [resolveBlock, resolveSpans_alike h s, checkAnchor_withTree]
  | .sectionOf header content => by
      simp only [resolveBlock, resolveSpans_alike h s, resolveBlocks_alike h s content,
        checkAnchor_withTree]
  | .quoted content => by
      simp only [resolveBlock, resolveBlocks_alike h s content]
  | .anchor _ => by simp only [resolveBlock, checkAnchor_withTree]
  | .linkDefinition _ => by simp only [resolveBlock, resolveDefinition_withTree]
  | .linkAlias indirection => by simp only [resolveBlock, resolveAlias_alike h s]
  | .citation label id content => by
      simp only [resolveBlock, resolveBlocks_alike h s content,
        finishCitation_withTree]
  | .footnoteDefinition label content => by
      simp only [resolveBlock, resolveBlocks_alike h s content,
        finishFootnote_withTree]
  | .footnote id label content => by
      simp only [resolveBlock, resolveBlocks_alike h s content]
  | .reference kind source => by
      simp only [resolveBlock, resolveReference_alike h s]
  | .invalid fallback problem => by
      simp only [resolveBlock, resolveInside_alike h s fallback]

theorem resolveInside_alike (h : t.Alike t') (s : Scope) : ∀ block : Block,
    (s.withTree t).resolveInside block = (s.withTree t').resolveInside block
  | .citation label id content => by
      simp only [resolveInside, resolveBlocks_alike h s content]
  | .footnoteDefinition label content => by
      simp only [resolveInside, resolveBlocks_alike h s content]
  | .header header => by simp only [resolveInside, resolveSpans_alike h s]
  | .sectionOf header content => by
      simp only [resolveInside, resolveSpans_alike h s, resolveBlocks_alike h s content]
  | .title title => by simp only [resolveInside, resolveSpans_alike h s]
  | .paragraph _ => by simp only [resolveInside]
  | .codeBlock _ _ => by simp only [resolveInside]
  | .rule => by simp only [resolveInside]
  | .verbatim _ _ => by simp only [resolveInside]
  | .decoratedHeader _ => by simp only [resolveInside]
  | .quoted _ => by simp only [resolveInside]
  | .anchor _ => by simp only [resolveInside]
  | .linkDefinition _ => by simp only [resolveInside]
  | .linkAlias _ => by simp only [resolveInside]
  | .footnote _ _ _ => by simp only [resolveInside]
  | .reference _ _ => by simp only [resolveInside]
  | .invalid _ _ => by simp only [resolveInside]

theorem resolveBlocks_alike (h : t.Alike t') (s : Scope) : ∀ blocks : List Block,
    (s.withTree t).resolveBlocks blocks = (s.withTree t').resolveBlocks blocks
  | [] => rfl
  | block :: blocks => by
      simp only [resolveBlocks, resolveBlock_alike h s block,
        resolveBlocks_alike h s blocks]

end

/-- A pass sees of the tree only what its index answers. -/
theorem run_alike (h : t.Alike t') (s : Scope) (blocks : List Block) :
    (s.withTree t).run blocks = (s.withTree t').run blocks := by
  unfold run
  rw [resolveBlocks_alike h s]

end Scope

namespace Document

variable {t t' : TreeIndex} (d : Document)

theorem finished_alike (h : t.Alike t') : d.finished t = d.finished t' := by
  have hrun := Scope.run_alike h (d.secondScope t) d.settled.content
  show { d with content := ((d.secondScope t).run d.settled.content).1 }
    = { d with content := ((d.secondScope t').run d.settled.content).1 }
  exact congrArg (fun result => { d with content := result.1 }) hrun

/-- Only the content of a document changes. -/
theorem finished_eq (tree : TreeIndex) :
    d.finished tree = { d with content := (d.finished tree).content } := by
  have hfields : ∀ e : Document, e.path = d.path → e.config = d.config →
      e = { d with content := e.content } := by
    rintro ⟨path, config, content⟩ rfl rfl
    rfl
  exact hfields (d.finished tree) rfl rfl

theorem reports_alike (h : t.Alike t') : d.reports t = d.reports t' := by
  have hrun := Scope.run_alike h (d.secondScope t) d.settled.content
  exact congrArg (fun result => d.localPhase.2 ++ result.2) hrun

/-- Whatever is reported for a document names the document. -/
theorem path_of_mem_reports {tree : TreeIndex} {diagnostic : Diagnostic}
    (h : diagnostic ∈ d.reports tree) : diagnostic.path = d.path := by
  obtain ⟨first, -, hfirst⟩ := d.yields_settled
  obtain ⟨second, -, hsecond⟩ := d.yields_finished tree
  rw [reports, hfirst, hsecond, ← List.map_append] at h
  obtain ⟨problem, -, rfl⟩ := List.mem_map.mp h
  rfl

end Document

/-! ## Documents by their paths -/

namespace Document

variable {documents : List Document}

/-- Under distinct paths the document at a path is the one that has it. -/
theorem find?_path_eq_some (hpaths : (documents.map Document.path).Nodup)
    {path : AbsolutePath} {d : Document} :
    documents.find? (·.path = path) = some d ↔ d ∈ documents ∧ d.path = path := by
  constructor
  · intro hfound
    exact ⟨List.mem_of_find?_eq_some hfound, by simpa using List.find?_some hfound⟩
  · rintro ⟨hmem, hpath⟩
    cases hfound : documents.find? (·.path = path) with
    | none =>
        have hother := List.find?_eq_none.mp hfound d hmem
        exact absurd (decide_eq_true hpath) hother
    | some e =>
        have hpath' : e.path = path := by simpa using List.find?_some hfound
        have hsame : e = d := List.inj_on_of_nodup_map hpaths
          (List.mem_of_find?_eq_some hfound) hmem (hpath'.trans hpath.symm)
        rw [hsame]

/-- Of reports that name their documents, those of one path are the reports of
the document there. -/
theorem filter_reports (hpaths : (documents.map Document.path).Nodup)
    {reports : Document → List Diagnostic}
    (hnamed : ∀ d, ∀ diagnostic ∈ reports d, diagnostic.path = d.path)
    (path : AbsolutePath) :
    ((documents.map reports).flatten).filter (·.path = path)
      = ((documents.find? (·.path = path)).map reports).getD [] := by
  induction documents with
  | nil => rfl
  | cons d documents ih =>
      obtain ⟨hd, hpaths⟩ := List.nodup_cons.mp hpaths
      rw [List.map_cons, List.flatten_cons, List.filter_append, ih hpaths,
        List.find?_cons]
      by_cases hpath : d.path = path
      · have hall : (reports d).filter (·.path = path) = reports d :=
          List.filter_eq_self.mpr fun diagnostic hmem =>
            decide_eq_true ((hnamed d diagnostic hmem).trans hpath)
        have hrest : documents.find? (·.path = path) = none := by
          refine List.find?_eq_none.mpr fun e he heq => hd ?_
          rw [hpath, ← of_decide_eq_true heq]
          exact List.mem_map_of_mem he
        rw [hall, hrest, decide_eq_true hpath]
        exact List.append_nil _
      · have hnone : (reports d).filter (·.path = path) = [] :=
          List.filter_eq_nil_iff.mpr fun diagnostic hmem heq =>
            hpath ((hnamed d diagnostic hmem).symm.trans (of_decide_eq_true heq))
        rw [hnone, decide_eq_false hpath]
        rfl

end Document

/-! ## The same documents elsewhere -/

namespace DocumentRoot

/-- The two roots hold the same documents and know the same static paths; where
the documents stand in them is left open. -/
structure Rearranged (r r' : DocumentRoot) : Prop where
  paths : (r.documents.map Document.path).Nodup
  paths' : (r'.documents.map Document.path).Nodup
  plain : ∀ d ∈ r.documents, d.path.fragment = none
  same : ∀ d, d ∈ r.documents ↔ d ∈ r'.documents
  static : ∀ path, path ∈ r.staticDocuments ↔ path ∈ r'.staticDocuments

namespace Rearranged

variable {r r' : DocumentRoot} (h : r.Rearranged r')

include h

theorem perm : r.documents.Perm r'.documents :=
  (List.perm_ext_iff_of_nodup (.of_map _ h.paths) (.of_map _ h.paths')).mpr h.same

theorem find?_path (path : AbsolutePath) :
    r.documents.find? (·.path = path) = r'.documents.find? (·.path = path) := by
  refine Option.ext fun d => ?_
  rw [Document.find?_path_eq_some h.paths, Document.find?_path_eq_some h.paths',
    h.same d]

theorem lookIn (id : String) (origin scope : AbsolutePath) :
    r.settledIndex.lookIn id origin scope = r'.settledIndex.lookIn id origin scope := by
  have hoffering : (r.settledIndex.offering id origin scope).Perm
      (r'.settledIndex.offering id origin scope) := by
    rw [TreeIndex.offering, TreeIndex.offering, documents_settledIndex r h.paths,
      documents_settledIndex r' h.paths']
    exact ((h.perm.map _).filter _).map _
  have hlength := hoffering.length_eq
  rw [TreeIndex.lookIn, TreeIndex.lookIn]
  match hsecond : r'.settledIndex.offering id origin scope with
  -- only whether there is none, one or more of them is asked
  | [] =>
      rw [hsecond] at hoffering
      rw [hoffering.eq_nil]
  | [path] =>
      rw [hsecond] at hoffering
      rw [List.perm_singleton.mp hoffering]
  | _ :: _ :: _ =>
      match hfirst : r.settledIndex.offering id origin scope with
      | [] => simp [hfirst, hsecond] at hlength
      | [_] => simp [hfirst, hsecond] at hlength
      | _ :: _ :: _ => rfl

/-- What the index answers does not show where the documents stand. -/
theorem alike : r.settledIndex.Alike r'.settledIndex where
  document? path := by
    rw [document?_settledIndex r h.paths, document?_settledIndex r' h.paths',
      document?, document?, h.find?_path]
  isStatic path := by
    rw [Bool.eq_iff_iff, TreeIndex.isStatic, TreeIndex.isStatic,
      List.contains_iff_mem, List.contains_iff_mem]
    exact h.static path.withoutFragment
  findAnchor id document := by
    have hlevels : ∀ levels,
        r.settledIndex.findFrom id document.withoutFragment levels
          = r'.settledIndex.findFrom id document.withoutFragment levels := by
      intro levels
      -- one scope after the other; both searches stop at the same one
      induction levels with
      | zero => rw [TreeIndex.findFrom, TreeIndex.findFrom, h.lookIn]
      | succ levels ih => rw [TreeIndex.findFrom, TreeIndex.findFrom, h.lookIn, ih]
    exact hlevels _

end Rearranged

theorem document?_resolve (r : DocumentRoot) (workers : Nat) (path : AbsolutePath) :
    (r.resolve workers).root.document? path
      = (r.document? path).map fun d => d.finished r.settledIndex := by
  rw [document?, documents_resolve, List.find?_map]
  rfl

theorem filter_diagnostics_resolve {r : DocumentRoot}
    (hpaths : (r.documents.map Document.path).Nodup) (workers : Nat)
    (path : AbsolutePath) :
    (r.resolve workers).diagnostics.filter (·.path = path)
      = ((r.documents.find? (·.path = path)).map fun d =>
          d.reports r.settledIndex).getD [] := by
  rw [diagnostics_resolve]
  exact Document.filter_reports hpaths (fun d _ hmem => d.path_of_mem_reports hmem) path

/-- What a document reports is all that is reported at its path. -/
theorem filter_diagnostics_of_mem {r : DocumentRoot}
    (hpaths : (r.documents.map Document.path).Nodup) (workers : Nat) {d : Document}
    (hd : d ∈ r.documents) :
    (r.resolve workers).diagnostics.filter (·.path = d.path)
      = d.reports r.settledIndex := by
  rw [filter_diagnostics_resolve hpaths,
    (Document.find?_path_eq_some hpaths).mpr ⟨hd, rfl⟩]
  rfl

/-- A document comes out the same, with the same diagnostics, wherever it and
the others stand in the tree. -/
theorem resolve_rearranged {r r' : DocumentRoot} (h : r.Rearranged r')
    (workers workers' : Nat) :
    (∀ d ∈ r.documents, ∃ content,
      (r.resolve workers).root.document? d.path = some { d with content := content }
        ∧ (r'.resolve workers').root.document? d.path
          = some { d with content := content })
    ∧ ∀ path, (r.resolve workers).diagnostics.filter (·.path = path)
        = (r'.resolve workers').diagnostics.filter (·.path = path) := by
  refine ⟨fun d hd => ?_, fun path => ?_⟩
  · have hplain := AbsolutePath.withoutFragment_eq_self (h.plain d hd)
    have hfound : r.document? d.path = some d := by
      rw [document?, hplain]
      exact (Document.find?_path_eq_some h.paths).mpr ⟨hd, rfl⟩
    have hfound' : r'.document? d.path = some d := by
      rw [document?, ← h.find?_path]
      exact hfound
    refine ⟨(d.finished r.settledIndex).content, ?_, ?_⟩
    · rw [document?_resolve, hfound, Option.map_some, ← d.finished_eq]
    · rw [document?_resolve, hfound', Option.map_some, d.finished_alike h.alike,
        ← d.finished_eq]
  · have hreports : (fun d : Document => d.reports r.settledIndex)
        = fun d => d.reports r'.settledIndex :=
      funext fun d => d.reports_alike h.alike
    rw [filter_diagnostics_resolve h.paths, filter_diagnostics_resolve h.paths',
      h.find?_path, hreports]

/-- Links to an anchor of another document and to one that nobody has. -/
def skerryChart : Document where
  path := ⟨["chart.md"], none⟩
  config := .initial
  content :=
    [.paragraph [.reference (.linkId [.text "skerry"] "skerry") "[skerry]",
      .reference (.linkId [.text "wreck"] "wreck") "[wreck]"]]

def skerryLog : Document where
  path := ⟨["log.md"], none⟩
  config := .initial
  content := [.anchor "skerry"]

/-- The chart is the cover. -/
def chartFirst : DocumentRoot where
  cover := some skerryChart
  staticDocuments := []
  tree := ⟨.root, .initial, none, [.document skerryLog]⟩

/-- The log introduces a tree that holds the chart. -/
def chartBelow : DocumentRoot where
  cover := none
  staticDocuments := []
  tree := ⟨.root, .initial, none,
    [.tree ⟨["voyage"], none⟩ .initial (some skerryLog) [.document skerryChart]]⟩

theorem resolve_rearranged_skerry :
    chartFirst.Rearranged chartBelow
      ∧ (chartFirst.resolve 2).diagnostics.filter (·.path = skerryChart.path)
        = [⟨skerryChart.path, (Failure.unresolvedLink "wreck").problem⟩]
      ∧ (∃ content,
          (chartFirst.resolve 2).root.document? skerryChart.path
              = some { skerryChart with content := content }
            ∧ (chartBelow.resolve 1).root.document? skerryChart.path
              = some { skerryChart with content := content })
      ∧ (chartFirst.resolve 2).diagnostics.filter (·.path = skerryChart.path)
        = (chartBelow.resolve 1).diagnostics.filter (·.path = skerryChart.path) := by
  have hfirst : skerryChart ∈ chartFirst.documents := List.mem_cons_self
  have hmoved : chartFirst.Rearranged chartBelow :=
    { paths := by decide
      paths' := by decide
      plain := List.forall_mem_cons.mpr ⟨rfl, List.forall_mem_singleton.mpr rfl⟩
      same := fun d => (List.Perm.swap skerryLog skerryChart []).mem_iff
      static := fun path => Iff.rfl }
  obtain ⟨hdocuments, hdiagnostics⟩ := resolve_rearranged hmoved 2 1
  refine ⟨hmoved, ?_, hdocuments skerryChart hfirst, hdiagnostics _⟩
  rw [diagnostics_resolve]
  rfl

end DocumentRoot

end Crosslink
