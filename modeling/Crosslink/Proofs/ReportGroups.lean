import Crosslink.Proofs.Position
import Crosslink.Report.Problems

/-!
# Groups of a report

The report of a run is written diagnostic by diagnostic: a heading stands
wherever the path changes from one to the next, and the documents are counted
the same way. For diagnostics that stand together by path this is a text
of groups, each under its one heading, and a count of the groups
(`report_flatMap`). It rests on one lemma about a run of diagnostics at one
path, for the text and for the count. Resolution keeps the diagnostics of a
document together, so its report has one group for each document that has
any.
-/

namespace Crosslink

/-! ## Groups -/

/-- The diagnostics listed under one heading: all at its path, and not none. -/
structure ReportGroup where
  path : AbsolutePath
  diagnostics : List Diagnostic
  ne_nil : diagnostics ≠ []
  at_path : ∀ diagnostic ∈ diagnostics, diagnostic.path = path

namespace ReportGroup

def items (group : ReportGroup) : String :=
  String.join (group.diagnostics.map Diagnostic.item)

/-- The heading and the items of a group. -/
def text (group : ReportGroup) : String :=
  "# " ++ group.path.toText ++ "\n\n" ++ group.items

/-- The report that consists of the groups, with an empty line between them. -/
def report (groups : List ReportGroup) : String :=
  match groups with
  | [] => "All references resolved.\n"
  | _ :: _ =>
    "\n".intercalate (groups.map text) ++ "\n"
      ++ toString (groups.flatMap diagnostics).length ++ " problem(s) in "
      ++ toString groups.length ++ " document(s)\n"

end ReportGroup

/-! ## Diagnostics at one path -/

namespace Diagnostic

variable {path : AbsolutePath} {diagnostics : List Diagnostic}

/-- A heading after other groups is set off by an empty line. -/
theorem heading_of_ne {before : AbsolutePath} (h : before ≠ path) :
    heading (some before) path = "\n" ++ heading none path := by
  have hsome : heading (some before) path = "\n" ++ "# " ++ path.toText ++ "\n\n" :=
    if_neg h
  rw [hsome, heading, String.append_assoc, String.append_assoc, String.append_assoc]

/-- Below its heading a path is not named again. -/
theorem groupsText_run (hpath : ∀ diagnostic ∈ diagnostics, diagnostic.path = path)
    (rest : List Diagnostic) :
    groupsText (some path) (diagnostics ++ rest)
      = String.join (diagnostics.map item) ++ groupsText (some path) rest := by
  induction diagnostics with
  | nil => simp
  | cons first diagnostics ih =>
      obtain ⟨rfl, hrest⟩ := List.forall_mem_cons.mp hpath
      rw [List.cons_append, groupsText, heading, if_pos rfl, ih hrest, List.map_cons,
        String.join_cons, String.empty_append, String.append_assoc]

theorem countDocuments_run
    (hpath : ∀ diagnostic ∈ diagnostics, diagnostic.path = path)
    (rest : List Diagnostic) :
    countDocuments (some path) (diagnostics ++ rest)
      = countDocuments (some path) rest := by
  induction diagnostics with
  | nil => rfl
  | cons first diagnostics ih =>
      obtain ⟨rfl, hrest⟩ := List.forall_mem_cons.mp hpath
      rw [List.cons_append, countDocuments, if_pos rfl, ih hrest, Nat.zero_add]

end Diagnostic

/-! ## Groups one after the other -/

namespace ReportGroup

open Diagnostic (groupsText countDocuments)

/-- A group has one heading, in front of its items. -/
theorem groupsText_group (group : ReportGroup) (rest : List Diagnostic)
    (before : Option AbsolutePath) :
    groupsText before (group.diagnostics ++ rest)
      = Diagnostic.heading before group.path ++ group.items
        ++ groupsText (some group.path) rest := by
  obtain ⟨path, diagnostics, hne, hpath⟩ := group
  cases diagnostics with
  | nil => exact absurd rfl hne
  | cons first diagnostics =>
      obtain ⟨rfl, hrest⟩ := List.forall_mem_cons.mp hpath
      rw [List.cons_append, groupsText, Diagnostic.groupsText_run hrest, items,
        List.map_cons, String.join_cons]
      simp only [String.append_assoc]

theorem countDocuments_group (group : ReportGroup) (rest : List Diagnostic)
    {before : Option AbsolutePath} (hbefore : before ≠ some group.path) :
    countDocuments before (group.diagnostics ++ rest)
      = countDocuments (some group.path) rest + 1 := by
  obtain ⟨path, diagnostics, hne, hpath⟩ := group
  cases diagnostics with
  | nil => exact absurd rfl hne
  | cons first diagnostics =>
      obtain ⟨rfl, hrest⟩ := List.forall_mem_cons.mp hpath
      rw [List.cons_append, countDocuments, if_neg hbefore,
        Diagnostic.countDocuments_run hrest, Nat.add_comm]

theorem groupsText_flatMap (first : ReportGroup) (groups : List ReportGroup)
    (hpaths : ((first :: groups).map path).Nodup) :
    first.text ++ groupsText (some first.path) (groups.flatMap diagnostics)
      = "\n".intercalate ((first :: groups).map text) := by
  induction groups generalizing first with
  | nil => simp [groupsText]
  | cons next groups ih =>
      obtain ⟨hfirst, hrest⟩ := List.nodup_cons.mp hpaths
      have hother : first.path ≠ next.path := fun heq => hfirst (by simp [heq])
      have hnext : "\n".intercalate ((first :: next :: groups).map text)
          = first.text ++ "\n" ++ "\n".intercalate ((next :: groups).map text) :=
        String.intercalate_cons_cons
      have htext : next.text = Diagnostic.heading none next.path ++ next.items := rfl
      rw [List.flatMap_cons, next.groupsText_group, Diagnostic.heading_of_ne hother, hnext,
        ← ih next hrest, htext]
      simp only [String.append_assoc]

theorem countDocuments_flatMap (groups : List ReportGroup)
    (hpaths : (groups.map path).Nodup) {before : Option AbsolutePath}
    (hbefore : before ∉ groups.map fun group => some group.path) :
    countDocuments before (groups.flatMap diagnostics) = groups.length := by
  induction groups generalizing before with
  | nil => rfl
  | cons group groups ih =>
      obtain ⟨hgroup, hrest⟩ := List.nodup_cons.mp hpaths
      rw [List.map_cons, List.mem_cons, not_or] at hbefore
      have hnext : some group.path ∉ groups.map fun group => some group.path := by
        simpa using hgroup
      rw [List.flatMap_cons, group.countDocuments_group _ hbefore.1, ih hrest hnext,
        List.length_cons]

/-- Diagnostics that stand together by path are reported as groups. -/
theorem report_flatMap (groups : List ReportGroup)
    (hpaths : (groups.map path).Nodup) :
    Diagnostic.report (groups.flatMap diagnostics) = report groups := by
  cases groups with
  | nil => rfl
  | cons first groups =>
      have hsome : ((first :: groups).flatMap diagnostics).isEmpty = false := by
        simp [first.ne_nil]
      have hcount : countDocuments none ((first :: groups).flatMap diagnostics)
          = (first :: groups).length := countDocuments_flatMap _ hpaths (by simp)
      have htext : groupsText none ((first :: groups).flatMap diagnostics)
          = "\n".intercalate ((first :: groups).map text) := by
        rw [List.flatMap_cons, first.groupsText_group,
          ← groupsText_flatMap first groups hpaths]
        rfl
      rw [Diagnostic.report, hsome, hcount, htext]
      rfl

end ReportGroup

/-! ## The groups of a run -/

namespace Document

/-- What is reported for the document, if there is anything. -/
def reportGroup? (d : Document) (tree : TreeIndex) : Option ReportGroup :=
  if h : d.reports tree = [] then none
  else some ⟨d.path, d.reports tree, h, fun _ hmem => d.path_of_mem_reports hmem⟩

variable (d : Document) (tree : TreeIndex)

theorem diagnostics_reportGroup? :
    ((d.reportGroup? tree).map ReportGroup.diagnostics).getD [] = d.reports tree := by
  unfold reportGroup?
  split
  case isTrue hnone => exact hnone.symm
  case isFalse => rfl

theorem path_reportGroup? :
    (d.reportGroup? tree).map ReportGroup.path
      = if d.reports tree = [] then none else some d.path := by
  unfold reportGroup?
  split <;> rfl

end Document

namespace DocumentRoot

variable {r : DocumentRoot}

/-- One group for each document that has diagnostics, in the order of the
tree. -/
def reportGroups (r : DocumentRoot) : List ReportGroup :=
  r.documents.filterMap fun d => d.reportGroup? r.settledIndex

theorem diagnostics_reportGroups (r : DocumentRoot) (workers : Nat) :
    r.reportGroups.flatMap ReportGroup.diagnostics = (r.resolve workers).diagnostics := by
  rw [diagnostics_resolve, reportGroups]
  induction r.documents with
  | nil => rfl
  | cons d documents ih =>
      rw [List.map_cons, List.flatten_cons, ← ih,
        ← d.diagnostics_reportGroup? r.settledIndex, List.filterMap_cons]
      split
      · simp_all
      · simp_all

theorem path_mem_diagnostics_iff (hpaths : (r.documents.map Document.path).Nodup)
    (workers : Nat) {d : Document} (hd : d ∈ r.documents) :
    d.path ∈ (r.resolve workers).diagnostics.map Diagnostic.path
      ↔ d.reports r.settledIndex ≠ [] := by
  rw [← filter_diagnostics_of_mem hpaths workers hd, ne_eq, List.filter_eq_nil_iff]
  simp

theorem paths_reportGroups (hpaths : (r.documents.map Document.path).Nodup)
    (workers : Nat) :
    r.reportGroups.map ReportGroup.path
      = (r.documents.map Document.path).filter
          (· ∈ (r.resolve workers).diagnostics.map Diagnostic.path) := by
  rw [reportGroups, List.map_filterMap, List.filter_map, ← List.filterMap_eq_filter,
    List.map_filterMap]
  apply List.filterMap_congr
  intro d hd
  have hmem := path_mem_diagnostics_iff hpaths workers hd
  rw [d.path_reportGroup?]
  by_cases hnone : d.reports r.settledIndex = []
  · have hpath := mt hmem.mp (not_not_intro hnone)
    simpa [hnone, Option.guard] using hpath
  · have hpath := hmem.mpr hnone
    simpa [hnone, Option.guard] using hpath

/-- The report of a run has one group for each document with diagnostics, in
the order of the tree and under its path, with the diagnostics of the local phase
before those of the global phase; its last line counts all diagnostics and the
groups. -/
theorem report_resolve (hpaths : (r.documents.map Document.path).Nodup)
    (workers : Nat) :
    Diagnostic.report (r.resolve workers).diagnostics = ReportGroup.report r.reportGroups
      ∧ r.reportGroups.flatMap ReportGroup.diagnostics = (r.resolve workers).diagnostics
      ∧ r.reportGroups.map ReportGroup.path
        = (r.documents.map Document.path).filter
            (· ∈ (r.resolve workers).diagnostics.map Diagnostic.path)
      ∧ (r.reportGroups.map ReportGroup.path).Nodup
      ∧ (∀ group ∈ r.reportGroups, ∃ d ∈ r.documents, group.path = d.path
          ∧ group.diagnostics
            = d.localPhase.2 ++ (d.settled.globalPhase r.settledIndex).2
          ∧ group.diagnostics
            = (r.resolve workers).diagnostics.filter (·.path = d.path)) := by
  have hgroups := paths_reportGroups hpaths workers
  have hnodup : (r.reportGroups.map ReportGroup.path).Nodup := by
    rw [hgroups]
    exact hpaths.filter _
  refine ⟨?_, r.diagnostics_reportGroups workers, hgroups, hnodup, ?_⟩
  · rw [← r.diagnostics_reportGroups workers]
    exact ReportGroup.report_flatMap _ hnodup
  · intro group hmem
    obtain ⟨d, hd, hgroup⟩ := List.mem_filterMap.mp hmem
    have hpath := d.path_reportGroup? r.settledIndex
    have hlist := d.diagnostics_reportGroup? r.settledIndex
    rw [hgroup] at hpath hlist
    refine ⟨d, hd, ?_, hlist, hlist.trans ?_⟩
    · split at hpath
      · cases hpath
      · exact Option.some.inj hpath
    · rw [filter_diagnostics_of_mem hpaths workers hd]

/-- A log with a mark set twice and a lost reference, a chart that is in order,
and a list with a lost reference. -/
def harbourOffice : DocumentRoot where
  cover := some
    { path := ⟨["log.md"], none⟩
      config := .initial
      content :=
        [.anchor "buoy",
          .paragraph [.reference (.linkId [.text "wreck"] "wreck") "[wreck]"],
          .anchor "buoy"] }
  staticDocuments := []
  tree := ⟨.root, .initial, none,
    [.document
        { path := ⟨["chart.md"], none⟩
          config := .initial
          content := [.anchor "reef"] },
      .document
        { path := ⟨["list.md"], none⟩
          config := .initial
          content := [.paragraph [.reference (.linkId [.text "hull"] "hull") "[hull]"]] }]⟩

theorem report_resolve_harbourOffice :
    Diagnostic.report (harbourOffice.resolve 2).diagnostics
        = "# /log.md\n\n"
          ++ "- [duplicate-id] More than one link target with id 'buoy' in path /log.md\n"
          ++ "- [duplicate-id] More than one link target with id 'buoy' in path /log.md\n"
          ++ "- [unresolved] unresolved link id reference: wreck\n"
          ++ "\n# /list.md\n\n"
          ++ "- [unresolved] unresolved link id reference: hull\n"
          ++ "\n4 problem(s) in 2 document(s)\n"
      ∧ harbourOffice.reportGroups.map ReportGroup.path
        = [⟨["log.md"], none⟩, ⟨["list.md"], none⟩] := by
  have hpaths : (harbourOffice.documents.map Document.path).Nodup := by decide
  obtain ⟨hreport, -, hgroups, -⟩ := report_resolve hpaths 2
  constructor
  · rw [hreport]
    decide +kernel
  · rw [hgroups, diagnostics_resolve]
    decide +kernel

end DocumentRoot

end Crosslink
