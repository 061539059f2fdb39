import Crosslink.Proofs.Index

/-!
# What a link id is decided to be

`DocumentRoot.verdict` says what a link id comes to, read off the tree at
once: the first case that applies, and nothing of passes, of indexes built
in between or of what is remembered. What the searches of the two phases
find agrees with it. The first search decides the cases that the document
itself decides (`verdict_firstScope`); for a name that it puts off, the
index of the second phase holds no declaration that the first one lacked
(`Document.definition_secondScope`), so that the second search decides the
others (`verdict_secondScope`).
-/

namespace Crosslink

/-! ## The order of the cases -/

/-- What a link id is decided to be. -/
inductive Verdict where
  | leads (target : Target) (title : Option String)
  | fails (failure : Failure)
  /-- Nothing has that name. -/
  | unresolved

namespace Document

/-- The definitions and aliases that the document declares under `id`. -/
def definitionsOf (d : Document) (id : String) : List DefinitionEntry :=
  d.firstScope.index.linkDefinitions.values id

def anchorsOf (d : Document) (id : String) : List Unit :=
  d.firstScope.index.anchors.values id

/-- What other documents may link to, once repeated anchors are invalid. -/
def offeredAnchors (d : Document) : List String :=
  Blocks.usableAnchors d.settled.content

/-- The trees around the document, the one it stands in first. -/
def scopes (d : Document) : List AbsolutePath :=
  (List.range (d.path.parent.depth + 1)).reverse.map (TreeIndex.scopeAt d.path)

end Document

namespace DocumentRoot

/-- What there is at `path` for a link in `d`, written as `written`: a static
document, or a document that offers the wanted anchor and is enabled for
every format of `d`. -/
def reached (r : DocumentRoot) (d : Document) (written : WrittenPath)
    (path : AbsolutePath) : Except Failure Target :=
  if path.withoutFragment ∈ r.staticDocuments then
    .ok (d.firstScope.targetAt path)
  else
    match r.document? path with
    | none => .error (.unresolvedPath written)
    | some e =>
      if path.fragment.all e.offeredAnchors.contains then
        if d.config.targetFormats.isSubsetOf e.config.targetFormats then
          .ok (d.firstScope.targetAt path)
        else
          .error (.restrictedFormat d.config.targetFormats
            e.config.targetFormats)
      else .error (.unresolvedPath written)

/-- What a path written in `d` comes to; above the root it stays as it is. -/
def validated (r : DocumentRoot) (d : Document) (written : WrittenPath)
    (title : Option String) : Verdict :=
  match d.firstScope.locate written with
  | .aboveRoot _ => .leads (.external written.toText) title
  | .inside path =>
    match r.reached d written path with
    | .ok target => .leads target title
    | .error failure => .fails failure

/-- The other documents within `scope` that offer `id`. -/
def offering (r : DocumentRoot) (d : Document) (id : String)
    (scope : AbsolutePath) : List Document :=
  r.documents.filter fun e =>
    e.path != d.path && e.path.isWithin scope && e.offeredAnchors.contains id

/-- What `scope` decides about `id`, if a document within it offers it. -/
def verdictWithin (r : DocumentRoot) (d : Document) (id : String)
    (scope : AbsolutePath) : Option Verdict :=
  match r.offering d id scope with
  | [] => none
  | [e] => some (r.validated d (.absolute (e.path.withFragment (some id))) none)
  | _ :: _ :: _ => some (.fails (.duplicateTarget id scope))

/-- What an id in `d` that is no alias comes to: the first case decides. -/
def verdict (r : DocumentRoot) (d : Document) (id : String) : Verdict :=
  match d.definitionsOf id, d.anchorsOf id, d.config.globalTargets.get? id with
  | _ :: _ :: _, _, _ => .fails (.duplicateDefinition id d.path)
  | [.target ⟨.external url, title⟩], _, _ => .leads (.external url) title
  | [.target ⟨.internal path, title⟩], _, _ => r.validated d path title
  | _, _ :: _ :: _, _ => .fails (.duplicateTarget id d.path)
  | _, [_], _ =>
    .leads (.internal ⟨d.path.withFragment (some id), none, ⟨0, [], some id⟩⟩) none
  | _, _, some (.external url) => .leads (.external url) none
  | _, _, some (.internal path) => r.validated d (.absolute path) none
  | _, _, none => (d.scopes.findSome? (r.verdictWithin d id)).getD .unresolved

end DocumentRoot

/-! ## Paths -/

theorem Scope.resolvePath_of_inside {s : Scope} {tree : TreeIndex}
    {written : WrittenPath} {path : AbsolutePath}
    (h : s.locate written = .inside path) (htree : s.tree = some tree) :
    s.resolvePath written = s.checkPath tree written path := by
  rw [resolvePath, h, htree]

namespace DocumentRoot

variable {r : DocumentRoot} {d : Document} {id : String}

theorem checkPath_settledIndex (hpaths : (r.documents.map Document.path).Nodup)
    (written : WrittenPath) (path : AbsolutePath) :
    (d.secondScope r.settledIndex).checkPath r.settledIndex written path
      = match r.reached d written path with
        | .ok target => .resolved target
        | .error failure => .failed failure := by
  unfold Scope.checkPath TreeIndex.isStatic reached
  rw [document?_settledIndex r hpaths, staticDocuments_settledIndex]
  by_cases hstatic : path.withoutFragment ∈ r.staticDocuments
  · rw [if_pos (List.contains_iff_mem.mpr hstatic), if_pos hstatic]
    rfl
  · rw [if_neg (mt List.contains_iff_mem.mp hstatic), if_neg hstatic]
    cases r.document? path with
    | none => rfl
    | some e =>
        have hobstacle : (d.secondScope r.settledIndex).obstacle written path
              (TreeIndex.summarize e.settled)
            = if path.fragment.all e.offeredAnchors.contains then
                if d.config.targetFormats.isSubsetOf e.config.targetFormats then
                  none
                else
                  some (.restrictedFormat d.config.targetFormats
                    e.config.targetFormats)
              else some (.unresolvedPath written) := rfl
        simp only [Option.map_some, hobstacle]
        by_cases hoffered : path.fragment.all e.offeredAnchors.contains = true
        · rw [if_pos hoffered, if_pos hoffered]
          by_cases hformats :
              d.config.targetFormats.isSubsetOf e.config.targetFormats = true
          · rw [if_pos hformats, if_pos hformats]
            rfl
          · rw [if_neg hformats, if_neg hformats]
        · rw [if_neg hoffered, if_neg hoffered]

/-- A path that the first phase does not put off lies above the root. -/
theorem validated_firstScope {written : WrittenPath}
    (h : d.firstScope.resolvePath written ≠ .deferred) (r : DocumentRoot)
    (title : Option String) :
    ∃ target, d.firstScope.resolvePath written = .resolved target
      ∧ r.validated d written title = .leads target title := by
  cases hplace : d.firstScope.locate written with
  | aboveRoot path =>
      refine ⟨.external written.toText, ?_, ?_⟩
      · rw [Scope.resolvePath, hplace]
      · rw [validated, hplace]
  | inside path =>
      refine absurd ?_ h
      rw [Scope.resolvePath, hplace]
      rfl

/-- What the second phase makes of a path. -/
theorem validated_eq (hpaths : (r.documents.map Document.path).Nodup)
    (written : WrittenPath) (title : Option String) :
    r.validated d written title
      = match (d.secondScope r.settledIndex).resolvePath written with
        | .resolved target => .leads target title
        | .failed failure => .fails failure
        | .deferred => .unresolved := by
  have hlocate : (d.secondScope r.settledIndex).locate written
      = d.firstScope.locate written := by
    cases written <;> rfl
  cases hplace : d.firstScope.locate written with
  | aboveRoot path =>
      rw [validated, Scope.resolvePath, hlocate, hplace]
  | inside path =>
      rw [Scope.resolvePath_of_inside (hlocate.trans hplace) rfl,
        checkPath_settledIndex hpaths]
      simp only [validated, hplace]
      cases r.reached d written path <;> rfl

/-! ## Anchors of other documents -/

/-- What the answer of a search among the other documents means. -/
def verdictOfLookup (r : DocumentRoot) (d : Document) (id : String) :
    AnchorLookup → Verdict
  | .found path => r.validated d (.absolute path) none
  | .duplicate scope => .fails (.duplicateTarget id scope)
  | .missing => .unresolved

theorem offering_settledIndex (hpaths : (r.documents.map Document.path).Nodup)
    (scope : AbsolutePath) :
    r.settledIndex.offering id d.path scope
      = (r.offering d id scope).map Document.path := by
  rw [TreeIndex.offering, documents_settledIndex r hpaths, List.filter_map,
    List.map_map]
  rfl

theorem verdictWithin_eq (hpaths : (r.documents.map Document.path).Nodup)
    (scope : AbsolutePath) :
    r.verdictWithin d id scope
      = (r.settledIndex.lookIn id d.path scope).map (r.verdictOfLookup d id) := by
  rw [verdictWithin, TreeIndex.lookIn, offering_settledIndex hpaths]
  match r.offering d id scope with
  | [] => rfl
  | [e] => rfl
  | e :: e' :: rest => rfl

/-- Wider scopes are asked only if the nearer ones say nothing. -/
theorem verdictOfLookup_findFrom
    (hpaths : (r.documents.map Document.path).Nodup) (levels : Nat) :
    r.verdictOfLookup d id (r.settledIndex.findFrom id d.path levels)
      = (((List.range (levels + 1)).reverse.map
          (TreeIndex.scopeAt d.path)).findSome? (r.verdictWithin d id)).getD
          .unresolved := by
  induction levels with
  | zero =>
      rw [TreeIndex.findFrom]
      simp only [List.range_succ, List.range_zero, List.nil_append,
        List.reverse_singleton, List.map_cons, List.map_nil, List.findSome?_cons,
        List.findSome?_nil, verdictWithin_eq hpaths]
      cases r.settledIndex.lookIn id d.path (TreeIndex.scopeAt d.path 0) <;> rfl
  | succ levels ih =>
      rw [TreeIndex.findFrom, List.range_succ, List.reverse_append,
        List.reverse_singleton, List.map_append, List.map_singleton,
        List.singleton_append, List.findSome?_cons, verdictWithin_eq hpaths]
      cases r.settledIndex.lookIn id d.path
          (TreeIndex.scopeAt d.path (levels + 1)) with
      | none => exact ih
      | some answer => rfl

theorem verdictOfLookup_findAnchor
    (hpaths : (r.documents.map Document.path).Nodup)
    (hplain : d.path.fragment = none) (id : String) :
    r.verdictOfLookup d id (r.settledIndex.findAnchor id d.path)
      = (d.scopes.findSome? (r.verdictWithin d id)).getD .unresolved := by
  rw [TreeIndex.findAnchor, AbsolutePath.withoutFragment_eq_self hplain]
  exact verdictOfLookup_findFrom hpaths d.path.parent.depth

end DocumentRoot

/-! ## Ids -/

/-- Within a document a link to an anchor is just the fragment. -/
theorem Scope.ownAnchor_eq (s : Scope) (id : String) :
    s.ownAnchor id
      = .internal ⟨s.document.withFragment (some id), none, ⟨0, [], some id⟩⟩ := by
  have hsame : (s.document.withFragment (some id)).segments = s.document.segments :=
    rfl
  rw [ownAnchor, AbsolutePath.relativeTo, if_pos hsame]
  rfl

namespace Document

variable (d : Document) (tree : TreeIndex) {id : String}

/-- A definition that the first phase did not see does not appear after it. -/
theorem definition_secondScope (hnone : d.firstScope.aliasTarget? id = none)
    (hforeign : d.firstScope.Foreign id) :
    (d.secondScope tree).index.linkDefinitions.entry? id = none :=
  (d.secondScope_linkDefinitions tree).entry?_eq_none
    (hforeign.definition.entry?_eq_none hnone)

theorem aliasTarget?_secondScope (hnone : d.firstScope.aliasTarget? id = none)
    (hforeign : d.firstScope.Foreign id) :
    (d.secondScope tree).aliasTarget? id = none := by
  rw [Scope.aliasTarget?, d.definition_secondScope tree hnone hforeign]

end Document

namespace DocumentRoot

variable {r : DocumentRoot} {d : Document} {id : String}

/-- What the outcome of a search means once nothing is put off. -/
def verdictOf (r : DocumentRoot) (d : Document) : IdOutcome → Verdict
  | .found (.external url title) => .leads (.external url) title
  | .found (.path path title) => r.validated d path title
  | .found (.target target) => .leads target none
  | .deferred _ => .unresolved
  | .missing _ => .unresolved
  | .failed failure => .fails failure

/-- The first phase decides what the document decides by itself. -/
theorem verdict_firstScope {outcome : IdOutcome}
    (hnone : d.firstScope.aliasTarget? id = none)
    (h : d.firstScope.Finds id outcome) (hnow : outcome ≠ .deferred id) :
    r.verdict d id = r.verdictOf d outcome := by
  have hdefs : d.firstScope.Undefines id → d.definitionsOf id = [] :=
    fun hdef => Namespace.entry?_eq_none.mp (hdef.entry?_eq_none hnone)
  cases h with
  | repeatedDefinition hentry =>
      have htwo : 2 ≤ (d.definitionsOf id).length :=
        Namespace.entry?_eq_duplicate.mp hentry
      unfold verdict
      match d.definitionsOf id, htwo with
      | _ :: _ :: _, _ => rfl
  | definedUrl hentry =>
      rw [verdict, show d.definitionsOf id = _ from
        Namespace.entry?_eq_unique.mp hentry]
      rfl
  | definedPath hentry =>
      rw [verdict, show d.definitionsOf id = _ from
        Namespace.entry?_eq_unique.mp hentry]
      rfl
  | repeatedAnchor hdef hentry =>
      have htwo : 2 ≤ (d.anchorsOf id).length :=
        Namespace.entry?_eq_duplicate.mp hentry
      rw [verdict, hdefs hdef]
      match d.anchorsOf id, htwo with
      | _ :: _ :: _, _ => rfl
  | anchor hdef hentry =>
      rw [verdict, hdefs hdef, show d.anchorsOf id = _ from
        Namespace.entry?_eq_unique.mp hentry, Scope.ownAnchor_eq]
      rfl
  | deferred _ _ => exact absurd rfl hnow
  | globalUrl _ htree _ => cases htree
  | globalPath _ htree _ => cases htree
  | elsewhere _ htree _ _ => cases htree
  | ambiguous _ htree _ _ => cases htree
  | missing _ htree _ _ => cases htree

/-- The second phase decides the rest. -/
theorem verdict_secondScope {outcome : IdOutcome}
    (hpaths : (r.documents.map Document.path).Nodup)
    (hplain : d.path.fragment = none)
    (hnone : d.firstScope.aliasTarget? id = none)
    (hforeign : d.firstScope.Foreign id)
    (h : (d.secondScope r.settledIndex).Finds id outcome) :
    r.verdict d id = r.verdictOf d outcome := by
  have hdefs : d.definitionsOf id = [] :=
    Namespace.entry?_eq_none.mp (hforeign.definition.entry?_eq_none hnone)
  have hanchors : d.anchorsOf id = [] :=
    Namespace.entry?_eq_none.mp hforeign.anchor
  have hdef' := d.definition_secondScope r.settledIndex hnone hforeign
  have hanchor' := (d.secondScope_anchors r.settledIndex).entry?_eq_none
    hforeign.anchor
  have hsearch : d.config.globalTargets.get? id = none →
      r.verdict d id
        = r.verdictOfLookup d id (r.settledIndex.findAnchor id d.path) := by
    intro hglobal
    rw [verdictOfLookup_findAnchor hpaths hplain, verdict, hdefs, hanchors,
      hglobal]
  cases h with
  | repeatedDefinition hentry => rw [hdef'] at hentry; cases hentry
  | definedUrl hentry => rw [hdef'] at hentry; cases hentry
  | definedPath hentry => rw [hdef'] at hentry; cases hentry
  | repeatedAnchor _ hentry => rw [hanchor'] at hentry; cases hentry
  | anchor _ hentry => rw [hanchor'] at hentry; cases hentry
  | deferred _ htree => cases htree
  | globalUrl _ _ hglobal =>
      have hget : d.config.globalTargets.get? id = _ := hglobal
      rw [verdict, hdefs, hanchors, hget]
      rfl
  | globalPath _ _ hglobal =>
      have hget : d.config.globalTargets.get? id = _ := hglobal
      rw [verdict, hdefs, hanchors, hget]
      rfl
  | elsewhere _ htree hglobal hfind =>
      obtain rfl := Option.some.inj htree
      have hfound : r.settledIndex.findAnchor id d.path = _ := hfind
      rw [hsearch hglobal, hfound]
      rfl
  | ambiguous _ htree hglobal hfind =>
      obtain rfl := Option.some.inj htree
      have hfound : r.settledIndex.findAnchor id d.path = _ := hfind
      rw [hsearch hglobal, hfound]
      rfl
  | missing _ htree hglobal hfind =>
      obtain rfl := Option.some.inj htree
      have hfound : r.settledIndex.findAnchor id d.path = _ := hfind
      rw [hsearch hglobal, hfound]
      rfl

end DocumentRoot

end Crosslink
