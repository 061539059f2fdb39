import Mathlib.Data.List.Nodup
import Crosslink.Proofs.Scan

/-!
# Where a scan puts what it finds

Every entry that is shown (`FileTree.Shows`) takes one place of the scanned
root: its path is made of the names on the way to it, and its `Role` follows
from its name. `Listing.Accounts` says this of some entries of a directory and
is kept by each rule of a scan (`Scans.accounts`). It needs the entries to be
in the order of their names, since of two title documents only the last would
be kept. At the root the cover changes its role and nothing else
(`DocumentRoot.mem_places_of_scan`, `DocumentRoot.nodup_places_of_scan`).
-/

namespace Crosslink

/-- The place that the names lead to from a tree. -/
def AbsolutePath.below (p : AbsolutePath) (names : List String) : AbsolutePath :=
  ⟨p.segments ++ names, none⟩

theorem AbsolutePath.join_below (p : AbsolutePath) (name : String)
    (names : List String) : (p.join name).below names = p.below (name :: names) := by
  simp [below, join]

theorem AbsolutePath.below_inj {p : AbsolutePath} {names others : List String} :
    p.below names = p.below others ↔ names = others := by
  simp [below]

/-! ## Shown entries -/

namespace FileTree

/-- At every depth the entries are listed in the order of their names. -/
inductive Sorted : FileTree → Prop
  | text (content : String) : Sorted (.text content)
  | bytes : Sorted .bytes
  | directory {entries : List (String × FileTree)}
      (hnames : entries.Pairwise fun a b => a.1 < b.1)
      (hinside : ∀ entry ∈ entries, Sorted entry.2) : Sorted (.directory entries)

namespace Sorted

variable {name : String} {node : FileTree} {entries : List (String × FileTree)}

theorem nil : (FileTree.directory []).Sorted := .directory .nil nofun

theorem cons (hnode : node.Sorted) (hlt : ∀ entry ∈ entries, name < entry.1)
    (h : (FileTree.directory entries).Sorted) :
    (FileTree.directory ((name, node) :: entries)).Sorted := by
  cases h with
  | directory hnames hinside =>
      exact .directory (.cons hlt hnames) (List.forall_mem_cons.mpr ⟨hnode, hinside⟩)

theorem inside (h : (FileTree.directory entries).Sorted)
    (hmem : (name, node) ∈ entries) : node.Sorted := by
  cases h with
  | directory _ hinside => exact hinside _ hmem

theorem head (h : (FileTree.directory ((name, node) :: entries)).Sorted) :
    node.Sorted :=
  h.inside List.mem_cons_self

theorem head_lt (h : (FileTree.directory ((name, node) :: entries)).Sorted) :
    ∀ entry ∈ entries, name < entry.1 := by
  cases h with
  | directory hnames _ => exact (List.pairwise_cons.mp hnames).1

theorem tail (h : (FileTree.directory ((name, node) :: entries)).Sorted) :
    (FileTree.directory entries).Sorted := by
  cases h with
  | directory hnames hinside =>
      exact .directory (List.pairwise_cons.mp hnames).2
        fun entry hentry => hinside entry (List.mem_cons_of_mem _ hentry)

end Sorted

/-- The node stands at the end of the names, and none of them is left out. -/
inductive Shows : FileTree → List String → FileTree → Prop
  | here {node : FileTree} : Shows node [] node
  | inside {entries : List (String × FileTree)} {name : String}
      {node held : FileTree} {names : List String} (hmem : (name, node) ∈ entries)
      (hname : isLeftOut name = false) (hinside : Shows node names held) :
      Shows (.directory entries) (name :: names) held

/-- What is shown below a directory with these entries. -/
def ShownIn (entries : List (String × FileTree)) (names : List String)
    (held : FileTree) : Prop :=
  ∃ entry ∈ entries, isLeftOut entry.1 = false
    ∧ ∃ rest, names = entry.1 :: rest ∧ entry.2.Shows rest held

theorem shows_directory {entries : List (String × FileTree)} {names : List String}
    {held : FileTree} :
    Shows (.directory entries) names held
      ↔ names = [] ∧ held = .directory entries ∨ ShownIn entries names held := by
  constructor
  · intro h
    cases h with
    | here => exact .inl ⟨rfl, rfl⟩
    | inside hmem hname hinside => exact .inr ⟨_, hmem, hname, _, rfl, hinside⟩
  · rintro (⟨rfl, rfl⟩ | ⟨⟨name, node⟩, hmem, hname, rest, rfl, hinside⟩)
    · exact .here
    · exact .inside hmem hname hinside

theorem shows_file {node held : FileTree} {names : List String}
    (hfile : ∀ inside, node ≠ .directory inside) :
    node.Shows names held ↔ names = [] ∧ held = node := by
  constructor
  · intro h
    cases h with
    | here => exact ⟨rfl, rfl⟩
    | inside => exact absurd rfl (hfile _)
  · rintro ⟨rfl, rfl⟩
    exact .here

theorem shownIn_cons (name : String) (node : FileTree)
    (entries : List (String × FileTree)) {names : List String} {held : FileTree} :
    ShownIn ((name, node) :: entries) names held
      ↔ ShownIn [(name, node)] names held ∨ ShownIn entries names held := by
  simp [ShownIn, or_and_right, exists_or]

theorem shownIn_singleton {name : String} {node held : FileTree}
    {names : List String} :
    ShownIn [(name, node)] names held
      ↔ isLeftOut name = false ∧ ∃ rest, names = name :: rest ∧ node.Shows rest held := by
  simp [ShownIn]

end FileTree

/-! ## Roles -/

/-- What an entry becomes in a scanned root. -/
inductive Role where
  | cover
  | title
  | document
  | static
  | tree
deriving DecidableEq, Repr

/-- What a file becomes that is not the cover. -/
def Role.ofName (name : String) : Role :=
  if name = titleFile then .title
  else if isDocumentFile name then .document
  else .static

/-- What becomes of the entry at the end of the names below a directory. -/
def FileTree.roleBelow (names : List String) : FileTree → Role
  | .directory _ => .tree
  | _ => .ofName (names.getLast?.getD "")

/-- What becomes of the entry at the end of the names, read from the outermost
directory, which alone may have a cover. -/
def FileTree.role (names : List String) (node : FileTree) : Role :=
  if names = [coverFile] ∧ node.roleBelow names = .document then .cover
  else node.roleBelow names

theorem Role.ofName_of_not_document {name : String}
    (h : isDocumentFile name = false) : ofName name = .static := by
  have htitle : name ≠ titleFile := by
    rintro rfl
    exact absurd h (by decide)
  rw [ofName, if_neg htitle, if_neg (by simp [h])]

theorem FileTree.roleBelow_file {node : FileTree} {names : List String}
    (hfile : ∀ inside, node ≠ .directory inside) :
    node.roleBelow names = .ofName (names.getLast?.getD "") := by
  cases node with
  | directory inside => exact absurd rfl (hfile inside)
  | text => rfl
  | bytes => rfl

/-- The role below a directory depends on the last name only. -/
theorem FileTree.roleBelow_cons {name : String} {names : List String}
    (hnames : names ≠ []) (node : FileTree) :
    node.roleBelow (name :: names) = node.roleBelow names := by
  obtain ⟨first, rest, rfl⟩ := List.exists_cons_of_ne_nil hnames
  cases node <;> simp [roleBelow, List.getLast?_cons_cons]

/-! ## Places -/

def TreeNode.path : TreeNode → AbsolutePath
  | .document d => d.path
  | .tree path _ _ _ => path

mutual

/-- The places of a node of the tree of documents, with their roles. -/
def TreeNode.places : TreeNode → List (Role × AbsolutePath)
  | .document d => [(.document, d.path)]
  | .tree path _ titleDocument children =>
    (.tree, path) :: (titleDocument.toList.map fun d => (.title, d.path))
      ++ TreeNodes.places children

def TreeNodes.places : List TreeNode → List (Role × AbsolutePath)
  | [] => []
  | node :: nodes => node.places ++ TreeNodes.places nodes

end

theorem TreeNodes.places_append (first second : List TreeNode) :
    places (first ++ second) = places first ++ places second := by
  induction first with
  | nil => rfl
  | cons node first ih => simp [places, ih]

/-- All that has a place in the root. -/
def DocumentRoot.places (r : DocumentRoot) : List (Role × AbsolutePath) :=
  (r.cover.toList.map fun d => (.cover, d.path))
    ++ (TreeNode.tree r.tree.path r.tree.config r.tree.titleDocument
        r.tree.children).places
    ++ r.staticDocuments.map fun path => (.static, path)

namespace Listing

def places (l : Listing) : List (Role × AbsolutePath) :=
  (l.titleDocument.toList.map fun d => (.title, d.path))
    ++ TreeNodes.places l.children
    ++ l.staticDocuments.map fun path => (.static, path)

theorem places_append {a b : Listing}
    (h : a.titleDocument = none ∨ b.titleDocument = none) :
    (a.append b).places.Perm (a.places ++ b.places) := by
  rw [List.perm_iff_count]
  intro place
  have htitle : (b.titleDocument.or a.titleDocument).toList
      = a.titleDocument.toList ++ b.titleDocument.toList := by
    rcases h with h | h <;> simp [h]
  simp only [places, append, htitle, TreeNodes.places_append, List.map_append,
    List.count_append]
  omega

theorem places_ofTree (path : AbsolutePath) (config : Config) (inside : Listing) :
    (ofTree path config inside).places = (.tree, path) :: inside.places := by
  simp [ofTree, places, TreeNodes.places, TreeNode.places]

/-- The listing has one place for everything that is shown below the
directory at `base` with these entries, and no other. Children of the tree
come in the order of the entries. -/
structure Accounts (l : Listing) (base : AbsolutePath)
    (entries : List (String × FileTree)) : Prop where
  mem : ∀ role path, (role, path) ∈ l.places ↔ ∃ names node,
    FileTree.ShownIn entries names node ∧ path = base.below names
      ∧ role = node.roleBelow names
  nodup : (l.places.map Prod.snd).Nodup
  title : ∀ d ∈ l.titleDocument, titleFile ∈ entries.map Prod.fst
    ∧ d.path = base.join titleFile
  children : ∃ names : List String, names.Sublist (entries.map Prod.fst)
    ∧ l.children.map TreeNode.path = names.map base.join
  documents : ∀ entry ∈ entries, isLeftOut entry.1 = false →
    entry.2.roleBelow [entry.1] = .document →
      ∃ d, TreeNode.document d ∈ l.children ∧ d.path = base.join entry.1

variable {base : AbsolutePath} {name : String} {entries : List (String × FileTree)}

theorem accounts_nil : Listing.Accounts {} base [] where
  mem role path := by simp [places, TreeNodes.places, FileTree.ShownIn]
  nodup := .nil
  title := nofun
  children := ⟨[], .slnil, rfl⟩
  documents := nofun

/-- What is left out takes no place. -/
theorem Accounts.leftOut {l : Listing} {node : FileTree}
    (hname : isLeftOut name = true) (h : l.Accounts base entries) :
    l.Accounts base ((name, node) :: entries) where
  mem role path := by
    have hnone : ∀ names held, ¬ FileTree.ShownIn [(name, node)] names held := by
      intro names held hshown
      simp [FileTree.shownIn_singleton, hname] at hshown
    simp only [h.mem, FileTree.shownIn_cons name node entries, hnone,
      false_or]
  nodup := h.nodup
  title d hd := (h.title d hd).imp_left (List.mem_cons_of_mem _)
  children := h.children.imp fun _ hnames => hnames.imp_left (.cons _)
  documents entry hentry hshown := by
    rcases List.mem_cons.mp hentry with rfl | hentry
    · exact absurd hshown (by simp [hname])
    · exact h.documents entry hentry hshown

/-- A file that is shown takes the one place that its name says. -/
theorem mem_places_file {here : Listing} {node : FileTree}
    (hname : isLeftOut name = false) (hfile : ∀ inside, node ≠ .directory inside)
    (hplaces : here.places = [(.ofName name, base.join name)])
    (role : Role) (path : AbsolutePath) :
    (role, path) ∈ here.places ↔ ∃ names held,
      FileTree.ShownIn [(name, node)] names held ∧ path = base.below names
        ∧ role = held.roleBelow names := by
  have hrole : node.roleBelow [name] = .ofName name := FileTree.roleBelow_file hfile
  simp only [hplaces, FileTree.shownIn_singleton, FileTree.shows_file hfile,
    List.mem_singleton, Prod.mk.injEq]
  constructor
  · rintro ⟨rfl, rfl⟩
    exact ⟨[name], node, ⟨hname, [], rfl, rfl, rfl⟩, rfl, hrole.symm⟩
  · rintro ⟨_, _, ⟨-, _, rfl, rfl, rfl⟩, rfl, rfl⟩
    exact ⟨hrole, rfl⟩

theorem accounts_ofDocument {d : Document} {source : String}
    (hname : isLeftOut name = false) (hfile : isDocumentFile name = true)
    (hpath : d.path = base.join name) :
    (ofDocument d).Accounts base [(name, .text source)] := by
  have hlast : d.path.name? = some name := by
    rw [hpath]
    simp [AbsolutePath.name?, AbsolutePath.join]
  have hnode : ∀ inside, FileTree.text source ≠ .directory inside := by
    rintro inside ⟨⟩
  unfold ofDocument
  by_cases htitle : name = titleFile
  · rw [if_pos (by rw [hlast, htitle])]
    have hplaces : Listing.places { titleDocument := some d }
        = [(.ofName name, base.join name)] := by
      simp [places, TreeNodes.places, Role.ofName, htitle, hpath]
    refine ⟨mem_places_file hname hnode hplaces, by simp [hplaces], ?_,
      ⟨[], by simp, rfl⟩, by simp [FileTree.roleBelow, Role.ofName, htitle]⟩
    intro other hother
    obtain rfl : d = other := Option.some.inj hother
    simp [hpath, htitle]
  · rw [if_neg (by simpa [hlast] using htitle)]
    have hplaces : Listing.places { children := [.document d] }
        = [(.ofName name, base.join name)] := by
      simp [places, TreeNodes.places, TreeNode.places, Role.ofName, htitle, hfile, hpath]
    refine ⟨mem_places_file hname hnode hplaces, by simp [hplaces], ?_,
      ⟨[name], .refl _, by simp [TreeNode.path, hpath]⟩, by simp [hpath]⟩
    rintro other ⟨⟩

theorem accounts_static {node : FileTree} (hname : isLeftOut name = false)
    (hfile : isDocumentFile name = false) (hnode : ∀ inside, node ≠ .directory inside) :
    Listing.Accounts { staticDocuments := [base.join name] } base [(name, node)] := by
  have hplaces : Listing.places { staticDocuments := [base.join name] }
      = [(.ofName name, base.join name)] := by
    simp [places, TreeNodes.places, Role.ofName_of_not_document hfile]
  exact ⟨mem_places_file hname hnode hplaces, by simp [hplaces], nofun,
    ⟨[], by simp, rfl⟩,
    by simp [FileTree.roleBelow_file hnode, Role.ofName_of_not_document hfile]⟩

/-- A directory takes a place, and what is shown in it follows. -/
theorem accounts_ofTree {config : Config} {inside : List (String × FileTree)}
    {inner : Listing} (hname : isLeftOut name = false)
    (hinner : inner.Accounts (base.join name) inside) :
    (ofTree (base.join name) config inner).Accounts base [(name, .directory inside)] where
  mem role path := by
    have hcons : ∀ {names node}, FileTree.ShownIn inside names node →
        node.roleBelow (name :: names) = node.roleBelow names := by
      rintro - node ⟨-, -, -, -, rfl, -⟩
      exact FileTree.roleBelow_cons (List.cons_ne_nil _ _) node
    simp only [places_ofTree, List.mem_cons, Prod.mk.injEq, hinner.mem,
      FileTree.shownIn_singleton, FileTree.shows_directory]
    constructor
    · rintro (⟨rfl, rfl⟩ | ⟨names, node, hshown, rfl, rfl⟩)
      · exact ⟨[name], .directory inside, ⟨hname, [], rfl, .inl ⟨rfl, rfl⟩⟩, rfl, rfl⟩
      · exact ⟨name :: names, node, ⟨hname, names, rfl, .inr hshown⟩,
          base.join_below name names, (hcons hshown).symm⟩
    · rintro ⟨-, node, ⟨-, names, rfl, ⟨rfl, rfl⟩ | hshown⟩, rfl, rfl⟩
      · exact .inl ⟨rfl, rfl⟩
      · exact .inr ⟨names, node, hshown, (base.join_below name names).symm, hcons hshown⟩
  nodup := by
    rw [places_ofTree, List.map_cons, List.nodup_cons]
    refine ⟨fun hmem => ?_, hinner.nodup⟩
    obtain ⟨⟨role, path⟩, hplace, hpath⟩ := List.mem_map.mp hmem
    obtain ⟨names, node, ⟨_, _, _, rest, rfl, _⟩, rfl, _⟩ :=
      (hinner.mem role path).mp hplace
    simp [AbsolutePath.below, AbsolutePath.join] at hpath
  title := nofun
  children := ⟨[name], .refl _, rfl⟩
  documents := by simp [FileTree.roleBelow]

/-- The accounts of the first entry and of those after it make one. Only one
of them has a title document, as the names differ. -/
theorem Accounts.append {here rest : Listing} {node : FileTree}
    (hhere : here.Accounts base [(name, node)]) (hrest : rest.Accounts base entries)
    (hnames : ∀ entry ∈ entries, name < entry.1) :
    (here.append rest).Accounts base ((name, node) :: entries) := by
  have htitle : here.titleDocument = none ∨ rest.titleDocument = none := by
    cases hfirst : here.titleDocument with
    | none => exact .inl rfl
    | some d =>
        cases hsecond : rest.titleDocument with
        | none => exact .inr rfl
        | some other =>
            obtain ⟨entry, hentry, hname⟩ := List.mem_map.mp (hrest.title other hsecond).1
            have hsame : titleFile = name :=
              List.mem_singleton.mp (hhere.title d hfirst).1
            have hlt := hnames entry hentry
            rw [hname, hsame] at hlt
            exact absurd hlt (String.lt_irrefl _)
  have hperm := places_append htitle
  constructor
  · intro role path
    rw [hperm.mem_iff, List.mem_append, hhere.mem, hrest.mem]
    simp only [FileTree.shownIn_cons name node entries, or_and_right,
      exists_or]
  · rw [(hperm.map Prod.snd).nodup_iff, List.map_append, List.nodup_append]
    refine ⟨hhere.nodup, hrest.nodup, fun path hmem other hother heq => ?_⟩
    obtain ⟨⟨role, _⟩, hplace, rfl⟩ := List.mem_map.mp hmem
    obtain ⟨⟨role', _⟩, hplace', rfl⟩ := List.mem_map.mp hother
    obtain ⟨names, held, hshown, hpath, _⟩ := (hhere.mem _ _).mp hplace
    obtain ⟨names', held', ⟨entry, hentry, _, more', rfl, _⟩, hpath', _⟩ :=
      (hrest.mem _ _).mp hplace'
    obtain ⟨_, more, rfl, _⟩ := FileTree.shownIn_singleton.mp hshown
    have hsame := AbsolutePath.below_inj.mp (hpath.symm.trans (heq.trans hpath'))
    exact String.lt_irrefl entry.1 ((List.cons.inj hsame).1 ▸ hnames entry hentry)
  · intro d hd
    rcases Option.or_eq_some_iff.mp (Option.mem_def.mp hd) with hd | ⟨-, hd⟩
    · exact (hrest.title d hd).imp_left (List.mem_cons_of_mem _)
    · refine (hhere.title d hd).imp_left fun hmem => ?_
      exact List.mem_singleton.mp hmem ▸ List.mem_cons_self
  · obtain ⟨front, hfront, hchildren⟩ := hhere.children
    obtain ⟨back, hback, hchildren'⟩ := hrest.children
    exact ⟨front ++ back, hfront.append hback, by
      rw [Listing.append, List.map_append, List.map_append, hchildren, hchildren']⟩
  · intro entry hentry hname hrole
    rcases List.mem_cons.mp hentry with rfl | hentry
    · obtain ⟨d, hd, hpath⟩ := hhere.documents _ List.mem_cons_self hname hrole
      exact ⟨d, List.mem_append_left _ hd, hpath⟩
    · obtain ⟨d, hd, hpath⟩ := hrest.documents entry hentry hname hrole
      exact ⟨d, List.mem_append_right _ hd, hpath⟩

/-! ## The root -/

/-- The cover leaves its place among the documents, and the outermost tree has
a place; all else stays. -/
theorem places_toRoot (l : Listing) (config : Config) :
    (∃ d rest, TreeNode.document d ∈ l.children ∧ d.path.name? = some coverFile
        ∧ l.places.Perm ((.document, d.path) :: rest)
        ∧ (l.toRoot config).places.Perm ((.cover, d.path) :: (.tree, .root) :: rest))
      ∨ (∀ d, TreeNode.document d ∈ l.children → d.path.name? ≠ some coverFile)
        ∧ (l.toRoot config).places = (.tree, .root) :: l.places := by
  rcases takeCover_eq l.children
    with ⟨front, d, back, hchildren, hname, heq⟩ | ⟨hnone, heq⟩
  · refine .inl ⟨d, (l.titleDocument.toList.map fun d => (.title, d.path))
      ++ TreeNodes.places front ++ TreeNodes.places back
      ++ l.staticDocuments.map fun path => (.static, path),
      by simp [hchildren], hname, ?_, ?_⟩
    · rw [List.perm_iff_count]
      intro place
      simp only [places, hchildren, TreeNodes.places_append, TreeNodes.places,
        TreeNode.places, List.count_append, List.count_cons, List.count_nil]
      omega
    · rw [List.perm_iff_count]
      intro place
      simp only [DocumentRoot.places, toRoot, heq, TreeNodes.places_append,
        TreeNode.places, List.count_append, List.count_cons, List.count_nil,
        Option.toList, List.map_cons, List.map_nil, List.cons_append]
      omega
  · refine .inr ⟨hnone, ?_⟩
    simp [DocumentRoot.places, toRoot, heq, TreeNode.places, places]

namespace Accounts

variable {l : Listing}

theorem path_of_cover (h : l.Accounts .root entries) {d : Document}
    (hd : TreeNode.document d ∈ l.children) (hname : d.path.name? = some coverFile) :
    d.path = ⟨[coverFile], none⟩ := by
  obtain ⟨names, -, hchildren⟩ := h.children
  have hmem : d.path ∈ names.map AbsolutePath.root.join :=
    hchildren ▸ List.mem_map_of_mem (f := TreeNode.path) hd
  obtain ⟨name, -, hpath⟩ := List.mem_map.mp hmem
  rw [← hpath] at hname ⊢
  obtain rfl : name = coverFile := by
    simpa [AbsolutePath.name?, AbsolutePath.join, AbsolutePath.root] using hname
  rfl

/-- No path has two roles. -/
theorem role_unique (h : l.Accounts base entries) {role role' : Role}
    {path : AbsolutePath} (hrole : (role, path) ∈ l.places)
    (hrole' : (role', path) ∈ l.places) : role = role' :=
  congrArg Prod.fst (List.inj_on_of_nodup_map h.nodup hrole hrole' rfl)

/-- Without a cover nothing is shown that would be one. -/
theorem role_eq_roleBelow (h : l.Accounts .root entries)
    (hnone : ∀ d, TreeNode.document d ∈ l.children → d.path.name? ≠ some coverFile)
    {names : List String} {node : FileTree}
    (hshown : FileTree.ShownIn entries names node) :
    node.role names = node.roleBelow names := by
  refine if_neg ?_
  rintro ⟨rfl, hrole⟩
  obtain ⟨⟨name, held⟩, hentry, hname, rest, hrest, hheld⟩ := hshown
  obtain ⟨rfl, rfl⟩ := List.cons.inj hrest
  obtain rfl : held = node := by
    cases hheld
    rfl
  obtain ⟨d, hd, hpath⟩ := h.documents _ hentry hname hrole
  exact hnone d hd (by rw [hpath]; rfl)

/-- Besides the cover there is nothing at its path. -/
theorem mem_rest (h : l.Accounts .root entries) {rest : List (Role × AbsolutePath)}
    (hperm : l.places.Perm ((.document, ⟨[coverFile], none⟩) :: rest)) (role : Role)
    (path : AbsolutePath) :
    (role, path) ∈ rest
      ↔ (role, path) ∈ l.places ∧ path ≠ ⟨[coverFile], none⟩ := by
  have hnodup := h.nodup
  rw [(hperm.map Prod.snd).nodup_iff, List.map_cons, List.nodup_cons] at hnodup
  rw [hperm.mem_iff, List.mem_cons]
  refine ⟨fun hmem => ⟨.inr hmem, ?_⟩, ?_⟩
  · rintro rfl
    exact hnodup.1 (List.mem_map.mpr ⟨_, hmem, rfl⟩)
  · rintro ⟨heq | hmem, hne⟩
    · exact absurd (congrArg Prod.snd heq) hne
    · exact hmem

theorem mem_places_toRoot (h : l.Accounts .root entries) (config : Config) (role : Role)
    (path : AbsolutePath) :
    (role, path) ∈ (l.toRoot config).places ↔ ∃ names node,
      FileTree.Shows (.directory entries) names node ∧ path = ⟨names, none⟩
        ∧ role = node.role names := by
  simp only [FileTree.shows_directory, or_and_right, exists_or]
  rcases l.places_toRoot config with ⟨d, rest, hd, hname, hperm, hperm'⟩ | ⟨hnone, heq⟩
  · rw [h.path_of_cover hd hname] at hperm hperm'
    have hplace : (Role.document, (⟨[coverFile], none⟩ : AbsolutePath)) ∈ l.places :=
      hperm.mem_iff.mpr List.mem_cons_self
    rw [hperm'.mem_iff, List.mem_cons, List.mem_cons, h.mem_rest hperm, Prod.mk.injEq,
      Prod.mk.injEq]
    constructor
    · rintro (⟨rfl, rfl⟩ | ⟨rfl, rfl⟩ | ⟨hmem, hne⟩)
      · obtain ⟨names, node, hshown, hpath, hrole⟩ := (h.mem _ _).mp hplace
        obtain rfl : [coverFile] = names := congrArg AbsolutePath.segments hpath
        exact .inr ⟨_, node, hshown, rfl, (if_pos ⟨rfl, hrole.symm⟩).symm⟩
      · exact .inl ⟨[], _, ⟨rfl, rfl⟩, rfl, rfl⟩
      · obtain ⟨names, node, hshown, rfl, rfl⟩ := (h.mem role path).mp hmem
        refine .inr ⟨names, node, hshown, rfl, (if_neg ?_).symm⟩
        rintro ⟨rfl, -⟩
        exact hne rfl
    · rintro (⟨_, _, ⟨rfl, rfl⟩, rfl, rfl⟩ | ⟨names, node, hshown, rfl, rfl⟩)
      · exact .inr (.inl ⟨rfl, rfl⟩)
      · have hmem := (h.mem _ _).mpr ⟨names, node, hshown, rfl, rfl⟩
        by_cases hnames : names = [coverFile]
        · subst hnames
          exact .inl ⟨if_pos ⟨rfl, h.role_unique hmem hplace⟩, rfl⟩
        · have hpath : (⟨names, none⟩ : AbsolutePath) ≠ ⟨[coverFile], none⟩ :=
            fun hpath => hnames (congrArg AbsolutePath.segments hpath)
          refine .inr (.inr ⟨?_, hpath⟩)
          rw [FileTree.role, if_neg fun hcover => hnames hcover.1]
          exact hmem
  · rw [heq, List.mem_cons, Prod.mk.injEq, h.mem]
    constructor
    · rintro (⟨rfl, rfl⟩ | ⟨names, node, hshown, rfl, rfl⟩)
      · exact .inl ⟨[], _, ⟨rfl, rfl⟩, rfl, rfl⟩
      · exact .inr ⟨names, node, hshown, rfl, (h.role_eq_roleBelow hnone hshown).symm⟩
    · rintro (⟨_, _, ⟨rfl, rfl⟩, rfl, rfl⟩ | ⟨names, node, hshown, rfl, rfl⟩)
      · exact .inl ⟨rfl, rfl⟩
      · exact .inr ⟨names, node, hshown, rfl, h.role_eq_roleBelow hnone hshown⟩

theorem nodup_places_toRoot (h : l.Accounts .root entries) (config : Config) :
    ((l.toRoot config).places.map Prod.snd).Nodup := by
  have hroot : AbsolutePath.root ∉ l.places.map Prod.snd := by
    rintro hmem
    obtain ⟨⟨role, path⟩, hplace, hpath⟩ := List.mem_map.mp hmem
    obtain ⟨names, node, ⟨_, _, _, rest, rfl, _⟩, rfl, _⟩ := (h.mem role path).mp hplace
    cases hpath
  rcases l.places_toRoot config with ⟨d, rest, hd, hname, hperm, hperm'⟩ | ⟨hnone, heq⟩
  · -- the cover keeps the path that it had as a document
    rw [((hperm'.map Prod.snd).trans (.swap _ _ _)).nodup_iff, List.nodup_cons]
    rw [← List.map_cons (f := Prod.snd) (a := (Role.document, d.path)),
      ← (hperm.map Prod.snd).nodup_iff, ← (hperm.map Prod.snd).mem_iff]
    exact ⟨hroot, h.nodup⟩
  · rw [heq, List.map_cons, List.nodup_cons]
    exact ⟨hroot, h.nodup⟩

end Accounts

end Listing

/-- Whatever a scan does, it accounts for the entries. -/
theorem Scans.accounts {base : AbsolutePath} {config : Config}
    {entries : List (String × FileTree)} {l : Listing} (h : Scans base config entries l)
    (hsorted : (FileTree.directory entries).Sorted) : l.Accounts base entries := by
  induction h with
  | nil => exact Listing.accounts_nil
  | leftOut hname _ ih => exact (ih hsorted.tail).leftOut hname
  | document hname hfile hread _ ih =>
      exact (Listing.accounts_ofDocument hname hfile hread.path).append
        (ih hsorted.tail) hsorted.head_lt
  | static hname hfile hnode _ ih =>
      exact (Listing.accounts_static hname hfile hnode).append (ih hsorted.tail)
        hsorted.head_lt
  | directory hname _ _ _ ihinside ih =>
      exact (Listing.accounts_ofTree hname (ihinside hsorted.head)).append
        (ih hsorted.tail) hsorted.head_lt


end Crosslink
