import Crosslink.Proofs.PathText
import Crosslink.Proofs.Precedence
import Crosslink.Proofs.RoundTrip
import Crosslink.Proofs.Scan

/-!
# Which files can be addressed

The path of a scanned file is made of names as they stand on the disk, and no
reader has seen them. A name may hold any mark but a slash, so the text of the
path is read as that path exactly if no name on the way holds the mark `#`,
where a fragment would start. Whoever writes the text of such a path gets the
file, in a path link and in JSON (`DocumentRoot.scan_addresses`). A file with
that mark in its name is out of reach (`sharpNote_out_of_reach`).
-/

namespace Crosslink

/-- A name that an entry of a directory can have. -/
structure IsFileName (name : String) : Prop where
  ne_empty : name ≠ ""
  ne_dot : name ≠ "."
  ne_dots : name ≠ ".."
  slash : '/' ∉ name.toList

theorem IsFileName.isName_iff {name : String} (h : IsFileName name) :
    IsName name.toList ↔ '#' ∉ name.toList := by
  have hne : ∀ {text : String}, name ≠ text → name.toList ≠ text.toList :=
    fun hname heq => hname (String.toList_inj.mp heq)
  exact ⟨fun hname => hname.sign,
    fun hsign => ⟨hne h.ne_empty, hne h.ne_dot, hne h.ne_dots, h.slash, hsign⟩⟩

/-- Every entry of the tree has a name that it can have. -/
inductive FileTree.Named : FileTree → Prop
  | text (content : String) : Named (.text content)
  | bytes : Named .bytes
  | directory {entries : List (String × FileTree)}
      (hname : ∀ entry ∈ entries, IsFileName entry.1)
      (hinside : ∀ entry ∈ entries, Named entry.2) : Named (.directory entries)

/-- The path has no fragment, and files can have its names. -/
structure AbsolutePath.Named (p : AbsolutePath) : Prop where
  names : ∀ name ∈ p.segments, IsFileName name
  fragment : p.fragment = none

namespace AbsolutePath

theorem Named.join {p : AbsolutePath} {name : String} (h : p.Named)
    (hname : IsFileName name) : (p.join name).Named := by
  refine ⟨?_, rfl⟩
  simp only [AbsolutePath.join, List.forall_mem_append, List.forall_mem_singleton]
  exact ⟨h.names, hname⟩

/-- No name of the path holds the mark that starts a fragment. -/
def Plain (p : AbsolutePath) : Prop := ∀ name ∈ p.segments, '#' ∉ name.toList

instance (p : AbsolutePath) : Decidable p.Plain :=
  inferInstanceAs (Decidable (∀ name ∈ p.segments, '#' ∉ name.toList))

theorem Named.normal_iff {p : AbsolutePath} (h : p.Named) : p.Normal ↔ p.Plain := by
  constructor
  · exact fun hnormal name hname => (hnormal.names name hname).sign
  · intro hplain
    exact ⟨fun name hname => (h.names name hname).isName_iff.mpr (hplain name hname),
      by simp [h.fragment]⟩

end AbsolutePath

/-! ## Paths of files -/

/-- The paths of all files that have a place in the root. -/
def DocumentRoot.files (r : DocumentRoot) : List AbsolutePath :=
  r.documents.map Document.path ++ r.staticDocuments

def Listing.files (l : Listing) : List AbsolutePath :=
  l.documents.map Document.path ++ l.staticDocuments

theorem Listing.mem_files_append {a b : Listing} {p : AbsolutePath}
    (h : p ∈ (a.append b).files) : p ∈ a.files ∨ p ∈ b.files := by
  simp only [files, List.mem_append, List.mem_map] at h ⊢
  rcases h with ⟨d, hd, rfl⟩ | hstatic
  · rcases mem_documents_append hd with hd | hd
    · exact .inl (.inl ⟨d, hd, rfl⟩)
    · exact .inr (.inl ⟨d, hd, rfl⟩)
  · exact (List.mem_append.mp hstatic).imp .inr .inr

theorem Listing.files_ofDocument (d : Document) : (ofDocument d).files = [d.path] := by
  unfold ofDocument
  split <;> rfl

theorem Listing.files_ofTree (path : AbsolutePath) (config : Config) (inside : Listing) :
    (ofTree path config inside).files = inside.files := by
  rw [files, documents_ofTree]
  rfl

/-- Names on the disk are the names of the paths. -/
theorem Scans.named {base : AbsolutePath} {config : Config}
    {entries : List (String × FileTree)} {l : Listing} (h : Scans base config entries l)
    (hbase : base.Named) (hentries : (FileTree.directory entries).Named) :
    ∀ p ∈ l.files, p.Named := by
  -- the first entry has a name, and the entries after it are named as well
  have hcons : ∀ {name node rest}, (FileTree.directory ((name, node) :: rest)).Named →
      IsFileName name ∧ node.Named ∧ (FileTree.directory rest).Named := by
    intro name node rest hnamed
    cases hnamed with
    | directory hname hinside =>
        obtain ⟨hfirst, hname⟩ := List.forall_mem_cons.mp hname
        obtain ⟨hnode, hinside⟩ := List.forall_mem_cons.mp hinside
        exact ⟨hfirst, hnode, .directory hname hinside⟩
  induction h with
  | nil => exact nofun
  | leftOut _ _ ih => exact ih hbase (hcons hentries).2.2
  | document _ _ hread _ ih =>
      obtain ⟨hname, -, hrest⟩ := hcons hentries
      intro p hp
      rcases Listing.mem_files_append hp with hp | hp
      · rw [Listing.files_ofDocument, hread.path] at hp
        exact List.mem_singleton.mp hp ▸ hbase.join hname
      · exact ih hbase hrest p hp
  | static _ _ _ _ ih =>
      obtain ⟨hname, -, hrest⟩ := hcons hentries
      intro p hp
      rcases Listing.mem_files_append hp with hp | hp
      · exact List.mem_singleton.mp hp ▸ hbase.join hname
      · exact ih hbase hrest p hp
  | directory _ _ _ _ ihinside ih =>
      obtain ⟨hname, hinside, hrest⟩ := hcons hentries
      intro p hp
      rcases Listing.mem_files_append hp with hp | hp
      · rw [Listing.files_ofTree] at hp
        exact ihinside (hbase.join hname) hinside p hp
      · exact ih hbase hrest p hp

/-! ## Files in the index -/

namespace TreeIndex

theorem lookup_filter {path other : AbsolutePath} (h : path ≠ other)
    (summaries : List (AbsolutePath × DocumentSummary)) :
    (summaries.filter (·.1 != other)).lookup path = summaries.lookup path := by
  induction summaries with
  | nil => rfl
  | cons entry summaries ih =>
      obtain ⟨key, summary⟩ := entry
      rw [List.lookup_cons]
      by_cases hkey : key = other
      · subst hkey
        rw [List.filter_cons_of_neg (by simp), ih, beq_false_of_ne h]
      · rw [List.filter_cons_of_pos (by simpa using hkey), List.lookup_cons, ih]

theorem lookup_record (summaries : List (AbsolutePath × DocumentSummary)) (d : Document)
    (path : AbsolutePath) :
    (record summaries d).lookup path
      = if path = d.path then some (summarize d) else summaries.lookup path := by
  have hlast : [(d.path, summarize d)].lookup path
      = if path = d.path then some (summarize d) else none := by
    by_cases hpath : path = d.path
    · simp [hpath]
    · rw [List.lookup_cons, beq_false_of_ne hpath, if_neg hpath]
      rfl
  rw [record, List.lookup_append, hlast]
  by_cases hpath : path = d.path
  · have hnone : (summaries.filter (·.1 != d.path)).lookup path = none :=
      List.lookup_eq_none_iff.mpr fun entry hentry => by
        have hkey := (List.mem_filter.mp hentry).2
        simpa [hpath, bne_comm] using hkey
    rw [hnone, if_pos hpath, if_pos hpath, Option.none_or]
  · rw [lookup_filter hpath, if_neg hpath, if_neg hpath, Option.or_none]

theorem lookup_foldl_record (documents : List Document)
    (summaries : List (AbsolutePath × DocumentSummary)) (path : AbsolutePath) :
    (documents.foldl record summaries).lookup path
      = ((documents.reverse.find? fun d => path = d.path).map summarize).or
          (summaries.lookup path) := by
  induction documents generalizing summaries with
  | nil => rfl
  | cons d documents ih =>
      rw [List.foldl_cons, ih, lookup_record, List.reverse_cons, List.find?_append]
      cases documents.reverse.find? fun d => path = d.path with
      | some e => rfl
      | none => by_cases hpath : path = d.path <;> simp [hpath]

/-- Of the documents at a path the index keeps the last one. -/
theorem document?_build (root : DocumentRoot) (path : AbsolutePath) :
    (build root).document? path
      = (root.documents.reverse.find? fun d => path.withoutFragment = d.path).map
          summarize := by
  rw [document?, build, lookup_foldl_record]
  exact Option.or_none

end TreeIndex

namespace DocumentRoot

variable {r : DocumentRoot} {d : Document} {p : AbsolutePath}

/-- Where all formats are allowed, a path to a file leads to the file. -/
theorem resolvePath_file (hp : p ∈ r.files) (hplain : p.fragment = none)
    (hformats : ∀ e ∈ r.documents, e.config.targetFormats = .all) :
    (d.secondScope r.settledIndex).resolvePath (.absolute p)
      = .resolved (d.firstScope.targetAt p) := by
  have hself : p.withoutFragment = p := AbsolutePath.withoutFragment_eq_self hplain
  rw [Scope.resolvePath_of_inside rfl rfl, Scope.checkPath, TreeIndex.isStatic, hself,
    staticDocuments_settledIndex]
  by_cases hstatic : p ∈ r.staticDocuments
  · rw [if_pos (List.contains_iff_mem.mpr hstatic)]
    rfl
  · rw [if_neg (mt List.contains_iff_mem.mp hstatic)]
    obtain ⟨e, he, rfl⟩ := List.mem_map.mp ((List.mem_append.mp hp).resolve_right hstatic)
    obtain ⟨last, hlast⟩ : ∃ last, (r.settled.documents.reverse.find? fun d =>
        e.path = d.path) = some last := by
      refine Option.isSome_iff_exists.mp (List.find?_isSome.mpr ⟨e.settled, ?_, ?_⟩)
      · rw [List.mem_reverse, documents_settled]
        exact List.mem_map_of_mem he
      · exact decide_eq_true rfl
    have hall : last.config.targetFormats = .all := by
      have hmem := List.mem_of_find?_eq_some hlast
      rw [List.mem_reverse, documents_settled] at hmem
      obtain ⟨before, hbefore, rfl⟩ := List.mem_map.mp hmem
      exact hformats before hbefore
    have hsubset : ∀ f : TargetFormats, f.isSubsetOf .all = true := fun f => by
      cases f <;> rfl
    have hobstacle : (d.secondScope r.settledIndex).obstacle (.absolute e.path) e.path
        (TreeIndex.summarize last) = none := by
      rw [Scope.obstacle, hplain, TreeIndex.summarize, hall, hsubset]
      rfl
    have hfound : r.settledIndex.document? e.path = some (TreeIndex.summarize last) := by
      rw [settledIndex, TreeIndex.document?_build, hself, hlast]
      rfl
    simp only [hfound, hobstacle]
    rfl

/-- A reference whose path is read from the text of a file comes to the file. -/
def Addresses (r : DocumentRoot) (d : Document) (kind : ReferenceKind) (source : String)
    (out : Span) : Prop :=
  ∀ (shown : Appearance) (p : AbsolutePath) (written : WrittenPath)
      (title : Option String),
    p ∈ r.files → p.Plain → WrittenPath.parse p.toText = .ok written →
    Span.reference kind source = shown.byPath written title source →
      out = shown.toSpan (d.firstScope.targetAt p) title

theorem allows_addresses (hnamed : ∀ p ∈ r.files, p.Named)
    (hformats : ∀ e ∈ r.documents, e.config.targetFormats = .all) :
    d.firstScope.Allows (d.secondScope r.settledIndex) (r.Addresses d) := by
  intro kind source middle out first second hfirst hsecond shown p written title hp hplain
    hread heq
  have hnormal := (hnamed p hp).normal_iff.mpr hplain
  obtain rfl : written = .absolute p := by
    rw [WrittenPath.parse, p.toList_toText] at hread
    simp only [AbsolutePath.parse_toText hnormal] at hread
    cases hread
    rfl
  have hspan : Span.Yields d.firstScope (shown.byPath (.absolute p) title source) middle
      first := heq ▸ .reference hfirst
  have hlater : d.firstScope.resolvePath (.absolute p) = .deferred := rfl
  -- without the tree the path is put off, with it the file is found
  have hmiddle : middle = shown.byPath (.absolute p) title source := by
    cases hspan.of_byPath with
    | deferred => rfl
    | resolved h => rw [hlater] at h; cases h
    | failed h => rw [hlater] at h; cases h
  have hnow := resolvePath_file (d := d) hp (hnamed p hp).fragment hformats
  cases (hmiddle ▸ hsecond).of_byPath with
  | resolved h =>
      rw [hnow] at h
      cases h
      rfl
  | deferred h => rw [hnow] at h; cases h
  | failed h => rw [hnow] at h; cases h

/-- Of the files of a scanned root those can be addressed that have no mark `#`
on the way: the text of their path is read as that path, in JSON as well, and
references by that text come to the file wherever all formats are allowed. -/
theorem scan_addresses {place : String} {tree : FileTree} {r : DocumentRoot}
    (hnames : tree.Named) (h : scan place (some tree) = .ok r) :
    (∀ p ∈ r.files, AbsolutePath.parse p.toText = .ok p ↔ p.Plain)
      ∧ (∀ p ∈ r.files, p.Plain → p.toJson.absolutePath? = some p)
      ∧ ((∀ e ∈ r.documents, e.config.targetFormats = .all) → ∀ workers,
          List.Forall₂ (fun d final => final.path = d.path
              ∧ Blocks.Becomes (r.Addresses d) d.outlined.content final.content)
            r.documents (r.resolve workers).root.documents) := by
  obtain ⟨entries, config, l, htree, -, hscans, rfl⟩ := scans_of_scan h
  obtain rfl : tree = .directory entries := Option.some.inj htree
  have hnamed : ∀ p ∈ (l.toRoot config).files, p.Named := by
    intro p hp
    refine hscans.named ⟨nofun, rfl⟩ hnames p ?_
    rcases List.mem_append.mp hp with hp | hp
    · obtain ⟨d, hd, rfl⟩ := List.mem_map.mp hp
      exact List.mem_append_left _
        (List.mem_map_of_mem (l.documents_toRoot_subset config hd))
    · exact List.mem_append_right _ hp
  refine ⟨?_, ?_, ?_⟩
  · intro p hp
    exact AbsolutePath.parse_toText_iff.trans (hnamed p hp).normal_iff
  · intro p hp hplain
    exact Json.absolutePath?_toJson
      (AbsolutePath.readable_iff.mpr ((hnamed p hp).normal_iff.mpr hplain))
  · intro hformats workers
    rw [documents_resolve, List.forall₂_map_right_iff, List.forall₂_same]
    intro d hd
    obtain ⟨_, hfirst, -⟩ := d.yields_settled
    obtain ⟨_, hsecond, -⟩ := d.yields_finished (l.toRoot config).settledIndex
    exact ⟨rfl, hfirst.becomes (allows_addresses hnamed hformats) hsecond⟩

end DocumentRoot

/-- A note that shows a chart. -/
def FileTree.chartRoom : FileTree :=
  .directory [("chart.png", .bytes), ("note.md", .text "![chart](/chart.png)\n")]

/-- A note whose name holds the mark of a fragment, and one that links to it. -/
def FileTree.sharpNote : FileTree :=
  .directory [("a.md", .text "[see](/c#.md)\n"), ("c#.md", .text "Hello\n")]

namespace DocumentRoot

theorem scan_addresses_chartRoom :
    ∃ r, scan "chart" (some .chartRoom) = .ok r
      ∧ r.files = [⟨["note.md"], none⟩, ⟨["chart.png"], none⟩]
      ∧ (∀ p ∈ r.files, AbsolutePath.parse p.toText = .ok p)
      ∧ (∀ p ∈ r.files, p.toJson.absolutePath? = some p)
      ∧ List.Forall₂ (fun d final => final.path = d.path
            ∧ Blocks.Becomes (r.Addresses d) d.outlined.content final.content)
          r.documents (r.resolve 2).root.documents := by
  have hnames : FileTree.chartRoom.Named := by
    refine .directory ?_ ?_
    · exact List.forall_mem_cons.mpr ⟨⟨by decide, by decide, by decide, by decide⟩,
        List.forall_mem_singleton.mpr ⟨by decide, by decide, by decide, by decide⟩⟩
    · exact List.forall_mem_cons.mpr ⟨.bytes, List.forall_mem_singleton.mpr (.text _)⟩
  have hscan : (scan "chart" (some .chartRoom)).toOption.map
      (fun r => (r.files, r.documents.map fun e => e.config.targetFormats))
        = some ([⟨["note.md"], none⟩, ⟨["chart.png"], none⟩], [.all]) := by
    decide +kernel
  cases hr : scan "chart" (some .chartRoom) with
  | error e =>
      rw [hr] at hscan
      cases hscan
  | ok r =>
      rw [hr] at hscan
      obtain ⟨hfiles, hformats⟩ := Prod.mk.inj (Option.some.inj hscan)
      have hplain : ∀ p ∈ r.files, p.Plain := by
        rw [hfiles]
        decide
      have hall : ∀ e ∈ r.documents, e.config.targetFormats = .all := by
        intro e he
        have hmem := List.mem_map_of_mem (f := fun e => e.config.targetFormats) he
        rw [hformats] at hmem
        exact List.mem_singleton.mp hmem
      obtain ⟨hread, hjson, hresolve⟩ := scan_addresses hnames hr
      exact ⟨r, rfl, hfiles, fun p hp => (hread p hp).mpr (hplain p hp),
        fun p hp => hjson p hp (hplain p hp), hresolve hall 2⟩

/-- The text of its path is read as that of another file, and a link to it
leads nowhere. -/
theorem sharpNote_out_of_reach :
    (scan "sharp" (some .sharpNote)).toOption.map
        (fun r => (r.files, (r.resolve 1).diagnostics))
      = some ([⟨["a.md"], none⟩, ⟨["c#.md"], none⟩],
          [⟨⟨["a.md"], none⟩,
            (Failure.unresolvedPath (.absolute ⟨["c"], some ".md"⟩)).problem⟩])
      ∧ AbsolutePath.parse (AbsolutePath.toText ⟨["c#.md"], none⟩)
        = .ok ⟨["c"], some ".md"⟩ := by
  constructor
  · decide +kernel
  · decide

end DocumentRoot

end Crosslink
