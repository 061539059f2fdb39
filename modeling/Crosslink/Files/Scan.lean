import Crosslink.Config.Source
import Crosslink.Files.Basic
import Crosslink.Markdown.Document
import Crosslink.Markdown.FrontMatter
import Crosslink.Tree

/-!
# Directories as trees of documents

Every directory is a tree and may hold a configuration layer in
`directory.toml`. A Markdown file is a document, with a layer of its own in
its front matter; `title.md` introduces its tree, and `cover.md` in the
outermost directory is the cover. Every other file is a static document.
Hidden entries are left out. Entries are visited in the order in which they
are listed, and the first failure ends the scan.
-/

namespace Crosslink

/-! ## Names with a meaning -/

def layerFile : String := "directory.toml"

/-- The document that introduces a tree. -/
def titleFile : String := "title.md"

def coverFile : String := "cover.md"

/-- Entries that are no part of the tree. -/
def isLeftOut (name : String) : Bool :=
  name.toList.head? == some '.' || name == layerFile

/-- Files that hold a document. -/
def isDocumentFile (name : String) : Bool :=
  ".md".toList.isSuffixOf name.toList

/-! ## Layers -/

/-- The configuration that the layer in `file` makes of the inherited
one. -/
def applyLayer (file source : String) (inherited : Config)
    (base : AbsolutePath) : Except FatalError Config :=
  match ConfigLayer.parse? source with
  | none => .error (.unreadableConfig file)
  | some layer => (layer.apply inherited base).mapError (.ofLayer file)

/-- The configuration of the directory at `place` with these entries. -/
def directoryConfig (place : String) (path : AbsolutePath)
    (inherited : Config) (entries : List (String × FileTree)) :
    Except FatalError Config :=
  match entries.lookup layerFile with
  | none => .ok inherited
  | some (.text source) =>
    applyLayer (joinPlace place layerFile) source inherited path
  | some .bytes => .error .notText
  | some (.directory _) => .error .isDirectory

/-! ## Documents -/

/-- The document in a file of the tree at `base`. -/
def Document.read (file source : String) (path base : AbsolutePath)
    (inherited : Config) : Except FatalError Document := do
  let split := Markdown.splitFrontMatter source.toList
  let config ←
    match split.front with
    | some front => applyLayer file (String.ofList front) inherited base
    | none => pure inherited
  return ⟨path, config, Markdown.parse (String.ofList split.body)⟩

/-! ## Directories -/

/-- What a directory holds. -/
structure Listing where
  titleDocument : Option Document := none
  children : List TreeNode := []
  staticDocuments : List AbsolutePath := []

namespace Listing

def append (a b : Listing) : Listing :=
  { titleDocument := b.titleDocument.or a.titleDocument
    children := a.children ++ b.children
    staticDocuments := a.staticDocuments ++ b.staticDocuments }

def ofDocument (d : Document) : Listing :=
  if d.path.name? = some titleFile then { titleDocument := some d }
  else { children := [.document d] }

def ofTree (path : AbsolutePath) (config : Config) (inside : Listing) :
    Listing :=
  { children := [.tree path config inside.titleDocument inside.children]
    staticDocuments := inside.staticDocuments }

end Listing

mutual

/-- What the entry `name` at `place` adds to the tree at `base`. -/
def scanNode (place name : String) (base : AbsolutePath) (config : Config) :
    FileTree → Except FatalError Listing
  | .directory entries => do
    let path := base.join name
    let config ← directoryConfig place path config entries
    let inside ← scanEntries place path config entries
    return .ofTree path config inside
  | .text source =>
    if isDocumentFile name then
      (Document.read place source (base.join name) base config).map
        Listing.ofDocument
    else .ok { staticDocuments := [base.join name] }
  | .bytes =>
    if isDocumentFile name then .error .notText
    else .ok { staticDocuments := [base.join name] }

def scanEntry (place : String) (base : AbsolutePath) (config : Config) :
    String × FileTree → Except FatalError Listing
  | (name, node) =>
    if isLeftOut name then .ok {}
    else scanNode (joinPlace place name) name base config node

/-- What some entries of the directory at `place` add to the tree at
`base`. -/
def scanEntries (place : String) (base : AbsolutePath) (config : Config) :
    List (String × FileTree) → Except FatalError Listing
  | [] => .ok {}
  | entry :: entries => do
    let here ← scanEntry place base config entry
    let rest ← scanEntries place base config entries
    return here.append rest

end

/-- Takes the cover out of the children of the outermost tree. -/
def takeCover : List TreeNode → Option Document × List TreeNode
  | [] => (none, [])
  | .document d :: nodes =>
    if d.path.name? = some coverFile then (some d, nodes)
    else
      let (cover, nodes) := takeCover nodes
      (cover, .document d :: nodes)
  | node :: nodes =>
    let (cover, nodes) := takeCover nodes
    (cover, node :: nodes)

/-- The root of the directory at `place`, given what stands there. -/
def DocumentRoot.scan (place : String) :
    Option FileTree → Except FatalError DocumentRoot
  | some (.directory entries) => do
    let config ← directoryConfig place .root .initial entries
    let listing ← scanEntries place .root config entries
    let (cover, children) := takeCover listing.children
    return {
      cover := cover
      staticDocuments := listing.staticDocuments
      tree := ⟨.root, config, listing.titleDocument, children⟩ }
  | _ => .error (.directoryNotFound place)

end Crosslink
