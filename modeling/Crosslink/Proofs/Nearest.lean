import Crosslink.Index.Tree

/-!
# The nearest document that offers an anchor

The search for an anchor in the other documents looks through one enclosing
tree after the other and each time at all documents. What it answers can be
told without a search. Of a document that offers the anchor only one number
counts, its nearness: how many names it shares, from the root downward, with
the tree that the asking document stands in. The greatest nearness decides
(`nearest`).

A scope holds just the documents with at least as many names in common as the
scope has itself (`offering_scopeAt`). So as long as the narrower scopes were
empty, those of the present one all have the same nearness, and this is the
invariant of the search (`findFrom_eq_nearest`). The root is the scope without
names, which every document lies within.
-/

namespace Crosslink

namespace TreeIndex

/-- The other documents that offer `id`, by their paths; the fragment of the
asking path does not count. -/
def elsewhere (t : TreeIndex) (id : String) (document : AbsolutePath) :
    List AbsolutePath :=
  (t.documents.filter fun (path, summary) =>
    path != document.withoutFragment && summary.anchors.contains id).map (·.1)

/-- How many names `path` has in common, from the root downward, with the tree
that `document` stands in. -/
def nearness (document path : AbsolutePath) : Nat :=
  AbsolutePath.commonLength path.segments document.parent.segments

/-- The other documents that offer `id` at the given nearness. -/
def elsewhereAt (t : TreeIndex) (id : String) (document : AbsolutePath)
    (levels : Nat) : List AbsolutePath :=
  (t.elsewhere id document).filter (nearness document · == levels)

/-- The one document of greatest nearness that offers `id`; if several do,
the tree that they share with the asking document. -/
def nearest (t : TreeIndex) (id : String) (document : AbsolutePath) :
    AnchorLookup :=
  match ((t.elsewhere id document).map (nearness document)).max? with
  | none => .missing
  | some levels =>
    match t.elsewhereAt id document levels with
    | [path] => .found (path.withFragment (some id))
    | _ => .duplicate (scopeAt document levels)

variable {t : TreeIndex} {id : String} {document : AbsolutePath} {levels : Nat}

/-! ## One scope -/

theorem isWithin_scopeAt {path : AbsolutePath}
    (h : levels ≤ document.parent.depth) :
    path.isWithin (scopeAt document levels) = true
      ↔ levels ≤ nearness document path :=
  AbsolutePath.take_isPrefixOf_iff h

theorem offering_scopeAt (h : levels ≤ document.parent.depth) :
    t.offering id document.withoutFragment
        (scopeAt document.withoutFragment levels)
      = (t.elsewhere id document).filter
          (decide <| levels ≤ nearness document ·) := by
  rw [offering, elsewhere, List.filter_map, List.filter_filter]
  congr 1
  refine List.filter_congr fun ⟨path, summary⟩ _ => ?_
  have hscope : path.isWithin (scopeAt document.withoutFragment levels)
      = decide (levels ≤ nearness document path) :=
    Bool.eq_iff_iff.mpr ((isWithin_scopeAt h).trans decide_eq_true_iff.symm)
  simp only [Function.comp_apply, hscope]
  rw [Bool.and_right_comm, Bool.and_comm]

/-- No document that offers `id` has more than `levels` names in common with
the tree of the asking one. -/
def MostAt (t : TreeIndex) (id : String) (document : AbsolutePath)
    (levels : Nat) : Prop :=
  ∀ path ∈ t.elsewhere id document, nearness document path ≤ levels

theorem mostAt_depth : t.MostAt id document document.parent.depth :=
  fun path _ =>
    AbsolutePath.commonLength_le_right path.segments document.parent.segments

theorem offering_of_mostAt (hmost : t.MostAt id document levels)
    (h : levels ≤ document.parent.depth) :
    t.offering id document.withoutFragment
        (scopeAt document.withoutFragment levels)
      = t.elsewhereAt id document levels := by
  rw [offering_scopeAt h, elsewhereAt]
  refine List.filter_congr fun path hpath => ?_
  have hle : nearness document path ≤ levels := hmost path hpath
  rw [Bool.eq_iff_iff, decide_eq_true_iff, beq_iff_eq]
  exact ⟨fun hge => Nat.le_antisymm hle hge, fun heq => Nat.le_of_eq heq.symm⟩

theorem MostAt.pred (hmost : t.MostAt id document (levels + 1))
    (hnone : t.elsewhereAt id document (levels + 1) = []) :
    t.MostAt id document levels := by
  intro path hpath
  have hne : nearness document path ≠ levels + 1 := by
    simpa using List.filter_eq_nil_iff.mp hnone path hpath
  have hle : nearness document path ≤ levels + 1 := hmost path hpath
  omega

/-! ## The search -/

theorem max?_nearness (hmost : t.MostAt id document levels)
    (hsome : t.elsewhereAt id document levels ≠ []) :
    ((t.elsewhere id document).map (nearness document)).max? = some levels := by
  obtain ⟨path, hpath⟩ := List.exists_mem_of_ne_nil _ hsome
  obtain ⟨hmem, hat⟩ := List.mem_filter.mp hpath
  rw [List.max?_eq_some_iff]
  refine ⟨List.mem_map.mpr ⟨path, hmem, beq_iff_eq.mp hat⟩, ?_⟩
  rintro k hk
  obtain ⟨other, hother, rfl⟩ := List.mem_map.mp hk
  exact hmost other hother

theorem lookIn_of_mostAt (hmost : t.MostAt id document levels)
    (h : levels ≤ document.parent.depth)
    (hsome : t.elsewhereAt id document levels ≠ []) :
    t.lookIn id document.withoutFragment
        (scopeAt document.withoutFragment levels)
      = some (t.nearest id document) := by
  rw [lookIn, offering_of_mostAt hmost h, nearest, max?_nearness hmost hsome]
  match hat : t.elsewhereAt id document levels with
  | [] => exact absurd hat hsome
  | [path] => simp only [hat]
  | first :: second :: rest => simp only [hat]; rfl

theorem lookIn_eq_none (hmost : t.MostAt id document levels)
    (h : levels ≤ document.parent.depth)
    (hnone : t.elsewhereAt id document levels = []) :
    t.lookIn id document.withoutFragment
        (scopeAt document.withoutFragment levels) = none := by
  rw [lookIn, offering_of_mostAt hmost h, hnone]

theorem nearest_eq_missing_iff :
    t.nearest id document = .missing ↔ t.elsewhere id document = [] := by
  rw [nearest]
  match hmax : ((t.elsewhere id document).map (nearness document)).max? with
  | none => simpa using List.max?_eq_none_iff.mp hmax
  | some levels =>
    constructor
    · intro hmissing
      simp only at hmissing
      split at hmissing <;> cases hmissing
    · intro hnil
      rw [hnil] at hmax
      cases hmax

/-- The narrower scopes were empty, so no document is nearer than the scope
that is looked in next. -/
theorem findFrom_eq_nearest (hmost : t.MostAt id document levels)
    (h : levels ≤ document.parent.depth) :
    t.findFrom id document.withoutFragment levels = t.nearest id document := by
  induction levels with
  | zero =>
    by_cases hnone : t.elsewhereAt id document 0 = []
    · have hnil : t.elsewhere id document = [] := by
        refine List.eq_nil_iff_forall_not_mem.mpr fun path hpath => ?_
        have hzero : nearness document path = 0 :=
          Nat.le_zero.mp (hmost path hpath)
        exact List.filter_eq_nil_iff.mp hnone path hpath (beq_iff_eq.mpr hzero)
      rw [findFrom, lookIn_eq_none hmost h hnone, Option.getD_none,
        nearest_eq_missing_iff.mpr hnil]
    · rw [findFrom, lookIn_of_mostAt hmost h hnone, Option.getD_some]
  | succ levels ih =>
    by_cases hnone : t.elsewhereAt id document (levels + 1) = []
    · rw [findFrom, lookIn_eq_none hmost h hnone]
      exact ih (hmost.pred hnone) (Nat.le_of_succ_le h)
    · rw [findFrom, lookIn_of_mostAt hmost h hnone]

/-- The search for an anchor answers with the document of greatest nearness
that offers it, with the shared tree if there are several, and with nothing
just if no other document offers it. -/
theorem findAnchor_eq_nearest (t : TreeIndex) (id : String)
    (document : AbsolutePath) :
    t.findAnchor id document = t.nearest id document
      ∧ (t.findAnchor id document = .missing
          ↔ t.elsewhere id document = []) := by
  have hnearest : t.findAnchor id document = t.nearest id document :=
    findFrom_eq_nearest mostAt_depth (Nat.le_refl _)
  exact ⟨hnearest, hnearest ▸ nearest_eq_missing_iff⟩

/-! ## The index of a tree

The nearest documents are counted by their paths. In the index of a tree no
path stands twice, so this is to count documents.
-/

theorem nodup_record {summaries : List (AbsolutePath × DocumentSummary)}
    (h : (summaries.map (·.1)).Nodup) (d : Document) :
    ((record summaries d).map (·.1)).Nodup := by
  rw [record, List.map_append, List.nodup_append]
  refine ⟨(List.filter_sublist.map _).nodup h, by simp, ?_⟩
  intro path hpath other hother heq
  obtain ⟨entry, hentry, rfl⟩ := List.mem_map.mp hpath
  have hother' : other = d.path := List.mem_singleton.mp hother
  have hne : entry.1 ≠ d.path := by simpa using (List.mem_filter.mp hentry).2
  exact hne (heq.trans hother')

theorem nodup_build (root : DocumentRoot) :
    ((build root).documents.map (·.1)).Nodup := by
  suffices hfold : ∀ (documents : List Document)
      (summaries : List (AbsolutePath × DocumentSummary)),
      (summaries.map (·.1)).Nodup →
        ((documents.foldl record summaries).map (·.1)).Nodup from
    hfold root.documents [] List.nodup_nil
  intro documents
  induction documents with
  | nil => exact fun summaries h => h
  | cons d documents ih => exact fun summaries h => ih _ (nodup_record h d)

theorem nodup_elsewhere {root : DocumentRoot} :
    ((build root).elsewhere id document).Nodup :=
  (List.filter_sublist.map _).nodup (nodup_build root)

end TreeIndex

end Crosslink
