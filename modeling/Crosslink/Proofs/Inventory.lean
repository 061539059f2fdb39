import Crosslink.Proofs.Dictionary
import Crosslink.Proofs.Places

/-!
# A scanned root mirrors its directory

What a directory shows is found again in its root, each entry once, in the
role that its name gives it, and nothing else is (`DocumentRoot.Mirrors`,
`DocumentRoot.scan_mirrors`). Trees keep the order of the names. A document has
the content of its file, and its configuration is what the layers on the way
to it make of the initial one: that of every directory around it, from the
outermost inward, and its front matter (`FileTree.layersTo`).
-/

namespace Crosslink

namespace FileTree

/-! ## Following names -/

/-- What stands at the end of the names. -/
def get? : List String → FileTree → Option FileTree
  | [], node => some node
  | name :: names, node => (node.entries.lookup name).bind (get? names)

/-- The layers on the way from the node at `path` along the names, the outermost
first, each with the tree that declares it. A file counts by its front matter,
which belongs to the tree around it. -/
def layersTo (path : AbsolutePath) : List String → FileTree → List (String × AbsolutePath)
  | [], .text source => frontLayer path.parent source
  | name :: names, .directory entries =>
    directoryLayer path entries
      ++ ((entries.lookup name).map (layersTo (path.join name) names)).getD []
  | _, _ => []

/-- Entries in the order of their names are found by name. -/
theorem Sorted.lookup_eq {entries : List (String × FileTree)} {name : String}
    {node : FileTree} (h : (FileTree.directory entries).Sorted)
    (hmem : (name, node) ∈ entries) :
    entries.lookup name = some node := by
  induction entries with
  | nil => cases hmem
  | cons entry entries ih =>
      rw [Dictionary.lookup_cons entry.1 name entry.2]
      rcases List.mem_cons.mp hmem with rfl | hmem
      · exact if_pos rfl
      · have hlt : entry.1 < name := h.head_lt _ hmem
        have hne : name ≠ entry.1 := fun hname => String.lt_irrefl name (hname ▸ hlt)
        rw [if_neg hne]
        exact ih h.tail hmem

theorem mem_of_lookup {entries : List (String × FileTree)} {name : String}
    {node : FileTree} (h : entries.lookup name = some node) : (name, node) ∈ entries := by
  obtain ⟨front, back, rfl, -⟩ := List.lookup_eq_some_iff.mp h
  simp

theorem Shows.get?_eq {tree held : FileTree} {names : List String}
    (h : tree.Shows names held) (hsorted : tree.Sorted) :
    tree.get? names = some held := by
  induction h with
  | here => rfl
  | inside hmem hname hinside ih =>
      simp [get?, entries, hsorted.lookup_eq hmem, ih (hsorted.inside hmem)]

/-! ## What is visible -/

def isHidden (name : String) : Bool := name.toList.head? == some '.'

/-- The node stands at the end of the names. Nothing on the way is hidden, and
the node is no layer of its directory. -/
structure Visible (tree : FileTree) (names : List String) (node : FileTree) : Prop where
  held : tree.get? names = some node
  shown : ∀ name ∈ names, isHidden name = false
  other : names.getLast? ≠ some layerFile

theorem isLeftOut_eq (name : String) :
    isLeftOut name = (isHidden name || name == layerFile) := rfl

/-- Every shown directory has its layer in a file, if it has one. -/
def LayersInFiles (tree : FileTree) : Prop :=
  ∀ names inside, tree.Shows names (.directory inside) →
    ∀ node, inside.lookup layerFile = some node → ∃ source, node = .text source

theorem Shows.visible {tree node : FileTree} {names : List String}
    (h : tree.Shows names node) (hsorted : tree.Sorted) : tree.Visible names node := by
  refine ⟨h.get?_eq hsorted, ?_, ?_⟩
  · induction h with
    | here => exact nofun
    | inside hmem hname _ ih =>
        rw [isLeftOut_eq, Bool.or_eq_false_iff] at hname
        exact List.forall_mem_cons.mpr ⟨hname.1, ih (hsorted.inside hmem)⟩
  · intro hlast
    have hleft : ∀ name ∈ names, isLeftOut name = false := by
      clear hlast
      induction h with
      | here => exact nofun
      | inside hmem hname _ ih =>
          exact List.forall_mem_cons.mpr ⟨hname, ih (hsorted.inside hmem)⟩
    exact absurd (hleft _ (List.mem_of_getLast? hlast)) (by decide)

/-- Where layers are files, nothing lies below one. -/
theorem Visible.shows {tree node : FileTree} {names : List String}
    (h : tree.Visible names node) (hlayers : tree.LayersInFiles) :
    tree.Shows names node := by
  obtain ⟨hheld, hshown, hother⟩ := h
  induction names generalizing tree with
  | nil =>
      cases hheld
      exact .here
  | cons name names ih =>
      obtain ⟨child, hlookup, hchild⟩ := Option.bind_eq_some_iff.mp hheld
      obtain ⟨hname, hshown⟩ := List.forall_mem_cons.mp hshown
      cases tree with
      | text => cases hlookup
      | bytes => cases hlookup
      | directory entries =>
          have hmem := mem_of_lookup hlookup
          have hlayer : name ≠ layerFile := by
            rintro rfl
            obtain ⟨source, rfl⟩ := hlayers [] entries .here child hlookup
            cases names with
            | nil => exact hother rfl
            | cons => cases hchild
          have hleft : isLeftOut name = false := by
            rw [isLeftOut_eq, hname, beq_false_of_ne hlayer]
            rfl
          refine .inside hmem hleft (ih ?_ hchild hshown ?_)
          · intro below inside h
            exact hlayers (name :: below) inside (.inside hmem hleft h)
          · intro hlast
            refine hother ?_
            rw [List.getLast?_cons, hlast]
            rfl

theorem visible_iff {tree node : FileTree} {names : List String} (hsorted : tree.Sorted)
    (hlayers : tree.LayersInFiles) : tree.Visible names node ↔ tree.Shows names node :=
  ⟨fun h => h.shows hlayers, fun h => h.visible hsorted⟩

/-! ## What is read -/

/-- The document is what is written in the file at the end of the names below
the node at `start`, which inherits a configuration. -/
structure Reads (node : FileTree) (start : AbsolutePath) (inherited : Config)
    (names : List String) (d : Document) : Prop where
  path : d.path = start.below names
  content : ∃ source, node.get? names = some (.text source)
    ∧ d.content = Markdown.parse
        (String.ofList (Markdown.splitFrontMatter source.toList).body)
  config : Configures inherited (node.layersTo start names) d.config

theorem reads_file {d : Document} {source name : String} {base : AbsolutePath}
    {config : Config} (hbase : base.fragment = none)
    (h : d.ReadFrom source (base.join name) base config) :
    (text source).Reads (base.join name) config [] d where
  path := by rw [h.path, AbsolutePath.join_below]; rfl
  content := ⟨source, rfl, h.content⟩
  config := by
    have hparent : (base.join name).parent = base := by
      simp [AbsolutePath.join, AbsolutePath.parent, ← hbase]
    rw [layersTo, hparent]
    exact h.config

/-- What is read in a directory is read from outside as well, with the layer of
the directory before all others. -/
theorem Reads.inside {node : FileTree} {path : AbsolutePath} {inherited config : Config}
    {entries : List (String × FileTree)} {name : String} {names : List String}
    {d : Document} (h : node.Reads (path.join name) config names d)
    (hsorted : (directory entries).Sorted) (hmem : (name, node) ∈ entries)
    (henters : Enters path inherited entries config) :
    (directory entries).Reads path inherited (name :: names) d where
  path := by rw [h.path, AbsolutePath.join_below]
  content := by
    obtain ⟨source, hheld, hcontent⟩ := h.content
    refine ⟨source, ?_, hcontent⟩
    simp [get?, FileTree.entries, hsorted.lookup_eq hmem, hheld]
  config := by
    rw [layersTo, hsorted.lookup_eq hmem]
    exact henters.config.append h.config

end FileTree

/-! ## Trees -/

mutual

/-- The trees at and below a node. -/
def TreeNode.trees : TreeNode → List DocumentTree
  | .document _ => []
  | .tree path config titleDocument children =>
    ⟨path, config, titleDocument, children⟩ :: TreeNodes.trees children

def TreeNodes.trees : List TreeNode → List DocumentTree
  | [] => []
  | node :: nodes => node.trees ++ TreeNodes.trees nodes

end

theorem TreeNodes.trees_append (first second : List TreeNode) :
    trees (first ++ second) = trees first ++ trees second := by
  induction first with
  | nil => rfl
  | cons node first ih => simp [trees, ih]

def DocumentRoot.trees (r : DocumentRoot) : List DocumentTree :=
  r.tree :: TreeNodes.trees r.tree.children

/-- The tree is introduced by its title file, and its children stand in it in
the order of their names. -/
structure DocumentTree.InOrder (t : DocumentTree) : Prop where
  title : ∀ d ∈ t.titleDocument, d.path = t.path.join titleFile
  children : ∃ names : List String, names.Pairwise (· < ·)
    ∧ t.children.map TreeNode.path = names.map t.path.join

/-- A tree made of some children of a listing keeps their order. -/
theorem Listing.Accounts.inOrder {l : Listing} {base : AbsolutePath}
    {entries : List (String × FileTree)} (h : l.Accounts base entries)
    (hsorted : (FileTree.directory entries).Sorted) (config : Config)
    {children : List TreeNode} (hchildren : children.Sublist l.children) :
    DocumentTree.InOrder ⟨base, config, l.titleDocument, children⟩ where
  title d hd := (h.title d hd).2
  children := by
    obtain ⟨names, hnames, hpaths⟩ := h.children
    obtain ⟨kept, hkept, heq⟩ :=
      List.sublist_map_iff.mp (hpaths ▸ hchildren.map TreeNode.path)
    have hpairwise : (entries.map Prod.fst).Pairwise (· < ·) := by
      cases hsorted with
      | directory hnames _ => exact List.pairwise_map.mpr hnames
    exact ⟨kept, hpairwise.sublist (hkept.trans hnames), heq⟩

namespace Scans

variable {base : AbsolutePath} {config : Config} {entries : List (String × FileTree)}
  {l : Listing}

theorem trees_inOrder (h : Scans base config entries l)
    (hsorted : (FileTree.directory entries).Sorted) :
    ∀ t ∈ TreeNodes.trees l.children, t.InOrder := by
  induction h with
  | nil => exact nofun
  | leftOut _ _ ih => exact ih hsorted.tail
  | @document _ _ _ _ d _ _ _ _ _ _ ih =>
      have hnone : TreeNodes.trees (Listing.ofDocument d).children = [] := by
        unfold Listing.ofDocument
        split <;> rfl
      rw [Listing.append, TreeNodes.trees_append, hnone]
      exact ih hsorted.tail
  | static _ _ _ _ ih => exact ih hsorted.tail
  | @directory base _ next name inside _ inner _ _ _ hinside _ ihinside ih =>
      have haccounts := hinside.accounts hsorted.head
      intro t ht
      rw [Listing.append, TreeNodes.trees_append, List.mem_append] at ht
      rcases ht with ht | ht
      · rw [Listing.ofTree, TreeNodes.trees, TreeNodes.trees, List.append_nil,
          TreeNode.trees] at ht
        rcases List.mem_cons.mp ht with rfl | ht
        · exact haccounts.inOrder hsorted.head next (.refl _)
        · exact ihinside hsorted.head t ht
      · exact ih hsorted.tail t ht

/-- Every document was read from a file below the directory. -/
theorem reads (h : Scans base config entries l) (hbase : base.fragment = none)
    (hsorted : (FileTree.directory entries).Sorted) :
    ∀ d ∈ l.documents, ∃ entry ∈ entries, ∃ names,
      entry.2.Reads (base.join entry.1) config names d := by
  induction h with
  | nil => exact nofun
  | leftOut _ _ ih =>
      intro d hd
      obtain ⟨entry, hentry, hreads⟩ := ih hbase hsorted.tail d hd
      exact ⟨entry, List.mem_cons_of_mem _ hentry, hreads⟩
  | document _ _ hread _ ih =>
      intro d hd
      rcases Listing.mem_documents_append hd with hd | hd
      · rw [Listing.documents_ofDocument, List.mem_singleton] at hd
        subst hd
        exact ⟨_, List.mem_cons_self, [], FileTree.reads_file hbase hread⟩
      · obtain ⟨entry, hentry, hreads⟩ := ih hbase hsorted.tail d hd
        exact ⟨entry, List.mem_cons_of_mem _ hentry, hreads⟩
  | static _ _ _ _ ih =>
      intro d hd
      rcases Listing.mem_documents_append hd with hd | hd
      · cases hd
      · obtain ⟨entry, hentry, hreads⟩ := ih hbase hsorted.tail d hd
        exact ⟨entry, List.mem_cons_of_mem _ hentry, hreads⟩
  | directory _ henters _ _ ihinside ih =>
      intro d hd
      rcases Listing.mem_documents_append hd with hd | hd
      · rw [Listing.documents_ofTree] at hd
        obtain ⟨entry, hentry, names, hreads⟩ := ihinside rfl hsorted.head d hd
        exact ⟨_, List.mem_cons_self, entry.1 :: names,
          hreads.inside hsorted.head hentry henters⟩
      · obtain ⟨entry, hentry, hreads⟩ := ih hbase hsorted.tail d hd
        exact ⟨entry, List.mem_cons_of_mem _ hentry, hreads⟩

theorem layersInFiles (h : Scans base config entries l) {names : List String}
    {inside : List (String × FileTree)}
    (hshown : FileTree.ShownIn entries names (.directory inside)) {node : FileTree}
    (hnode : inside.lookup layerFile = some node) : ∃ source, node = .text source := by
  induction h generalizing names with
  | nil =>
      obtain ⟨entry, hmem, -⟩ := hshown
      exact absurd hmem List.not_mem_nil
  | leftOut hname _ ih =>
      rcases (FileTree.shownIn_cons _ _ _).mp hshown with hshown | hshown
      · obtain ⟨hshow, -⟩ := FileTree.shownIn_singleton.mp hshown
        cases hname.symm.trans hshow
      · exact ih hshown
  | document _ _ _ _ ih =>
      rcases (FileTree.shownIn_cons _ _ _).mp hshown with hshown | hshown
      · obtain ⟨-, rest, -, hheld⟩ := FileTree.shownIn_singleton.mp hshown
        cases hheld
      · exact ih hshown
  | static _ _ hfile _ ih =>
      rcases (FileTree.shownIn_cons _ _ _).mp hshown with hshown | hshown
      · obtain ⟨-, rest, -, hheld⟩ := FileTree.shownIn_singleton.mp hshown
        exact absurd ((FileTree.shows_file hfile).mp hheld).2.symm (hfile _)
      · exact ih hshown
  | directory _ henters _ _ ihinside ih =>
      rcases (FileTree.shownIn_cons _ _ _).mp hshown with hshown | hshown
      · obtain ⟨-, rest, -, hheld⟩ := FileTree.shownIn_singleton.mp hshown
        rcases FileTree.shows_directory.mp hheld with ⟨-, heq⟩ | hshown
        · cases heq
          exact henters.layer node hnode
        · exact ihinside hshown
      · exact ih hshown

end Scans

/-! ## The root -/

namespace DocumentRoot

/-- The root is that of the directory: what is visible has one place in it,
nothing else has, trees keep the order of names, and documents are what the
files say. -/
structure Mirrors (r : DocumentRoot) (tree : FileTree) : Prop where
  places : ∀ role path, (role, path) ∈ r.places ↔ ∃ names node,
    tree.Visible names node ∧ path = ⟨names, none⟩ ∧ role = node.role names
  distinct : (r.places.map Prod.snd).Nodup
  trees : ∀ t ∈ r.trees, t.InOrder
  documents : ∀ d ∈ r.documents, ∃ names, tree.Reads .root .initial names d

theorem trees_toRoot (l : Listing) (config : Config) :
    ∃ children, children.Sublist l.children
      ∧ (l.toRoot config).trees
        = ⟨.root, config, l.titleDocument, children⟩ :: TreeNodes.trees l.children := by
  rcases takeCover_eq l.children with ⟨front, d, back, hchildren, -, heq⟩ | ⟨-, heq⟩
  · refine ⟨front ++ back, ?_, ?_⟩
    · rw [hchildren]
      exact (List.Sublist.refl front).append (List.sublist_cons_self _ back)
    · rw [trees, Listing.toRoot, heq]
      simp [hchildren, TreeNodes.trees_append, TreeNodes.trees, TreeNode.trees]
  · exact ⟨l.children, .refl _, by simp [trees, Listing.toRoot, heq]⟩

theorem scan_mirrors {place : String} {tree : FileTree} {r : DocumentRoot}
    (hsorted : tree.Sorted) (h : scan place (some tree) = .ok r) : r.Mirrors tree := by
  obtain ⟨entries, config, l, htree, henters, hscans, rfl⟩ := scans_of_scan h
  obtain rfl : tree = .directory entries := Option.some.inj htree
  have haccounts := hscans.accounts hsorted
  have hlayers : (FileTree.directory entries).LayersInFiles := by
    intro names inside hshown node hnode
    rcases FileTree.shows_directory.mp hshown with ⟨-, heq⟩ | hshown
    · cases heq
      exact henters.layer node hnode
    · exact hscans.layersInFiles hshown hnode
  constructor
  · intro role path
    simp only [haccounts.mem_places_toRoot, FileTree.visible_iff hsorted hlayers]
  · exact haccounts.nodup_places_toRoot config
  · obtain ⟨children, hchildren, htrees⟩ := trees_toRoot l config
    rw [htrees]
    exact List.forall_mem_cons.mpr
      ⟨haccounts.inOrder hsorted config hchildren, hscans.trees_inOrder hsorted⟩
  · intro d hd
    obtain ⟨entry, hentry, names, hreads⟩ :=
      hscans.reads rfl hsorted d (l.documents_toRoot_subset config hd)
    exact ⟨entry.1 :: names, hreads.inside hsorted hentry henters⟩

end DocumentRoot

/-- A directory with a hidden one in it, and one with a directory that is
called like a title file. -/
def FileTree.harbour : FileTree :=
  .directory
    [(".log", .directory [("a.md", .text "ebb")]),
      ("chart.png", .bytes),
      ("cover.md", .text "Harbour"),
      ("directory.toml", .text "first_header_as_title = true\n"),
      ("port", .directory
        [("cover.md", .text "+++\nfirst_header_as_title = false\n+++\nPort"),
          ("directory.toml", .text "target_formats = [\"pdf\"]\n"),
          ("title.md", .directory [])]),
      ("title.md", .text "Tides")]

namespace DocumentRoot

theorem scan_mirrors_harbour :
    FileTree.harbour.Sorted
      ∧ ∃ r, scan "harbour" (some .harbour) = .ok r ∧ r.Mirrors .harbour := by
  have hsorted : FileTree.harbour.Sorted := by
    refine .cons (.cons (.text _) nofun .nil) (by decide) ?_
    refine .cons .bytes (by decide) (.cons (.text _) (by decide) ?_)
    refine .cons (.text _) (by decide) (.cons ?_ (by decide) (.cons (.text _) nofun .nil))
    refine .cons (.text _) (by decide) (.cons (.text _) (by decide) ?_)
    exact .cons .nil nofun .nil
  have hok : (scan "harbour" (some .harbour)).toBool = true := by decide +kernel
  cases hscan : scan "harbour" (some .harbour) with
  | error e =>
      rw [hscan] at hok
      cases hok
  | ok r => exact ⟨hsorted, r, rfl, scan_mirrors hsorted hscan⟩

example : (scan "harbour" (some .harbour)).toOption.map places = some
    [(.cover, ⟨["cover.md"], none⟩), (.tree, .root), (.title, ⟨["title.md"], none⟩),
      (.tree, ⟨["port"], none⟩), (.document, ⟨["port", "cover.md"], none⟩),
      (.tree, ⟨["port", "title.md"], none⟩), (.static, ⟨["chart.png"], none⟩)] := by
  decide +kernel

end DocumentRoot

end Crosslink
