import Crosslink.Config.Basic
import Crosslink.Markup.Block

/-!
# Trees of documents

Documents are the leaves of an ordered tree; a tree may have a document
that introduces it. The root adds a cover and the paths of the other files
that links may target. Tree order is: the cover, then for every tree its
introducing document and its children, depth first.

Whatever replaces the documents of a tree goes through them in tree order
(`mapM`). Resolution takes them out that way (`detach`), works on the list,
and puts the results back by position (`attach`).
-/

namespace Crosslink

/-- One document. -/
structure Document where
  path : AbsolutePath
  config : Config
  content : List Block

def Document.title? (d : Document) : Option Title := Blocks.title? d.content

/-- An empty stand-in that keeps the place of a document. -/
def Document.placeholder (d : Document) : Document :=
  ⟨d.path, .initial, []⟩

/-- A child of a tree: a document or a tree. -/
inductive TreeNode where
  | document (document : Document)
  | tree (path : AbsolutePath) (config : Config)
      (titleDocument : Option Document) (children : List TreeNode)

/-- An ordered tree of documents. -/
structure DocumentTree where
  path : AbsolutePath
  config : Config
  titleDocument : Option Document
  children : List TreeNode

/-- The tree of a whole run. -/
structure DocumentRoot where
  cover : Option Document
  staticDocuments : List AbsolutePath
  tree : DocumentTree

/-! ## Documents in tree order -/

mutual

def TreeNode.documents : TreeNode → List Document
  | .document document => [document]
  | .tree _ _ titleDocument children =>
    titleDocument.toList ++ TreeNodes.documents children

def TreeNodes.documents : List TreeNode → List Document
  | [] => []
  | node :: nodes => node.documents ++ TreeNodes.documents nodes

end

def DocumentTree.documents (t : DocumentTree) : List Document :=
  t.titleDocument.toList ++ TreeNodes.documents t.children

namespace DocumentRoot

/-- Every document, the cover first. -/
def documents (r : DocumentRoot) : List Document :=
  r.cover.toList ++ r.tree.documents

/-- The first document at `path`; fragments of the wanted path do not
count. -/
def document? (r : DocumentRoot) (path : AbsolutePath) : Option Document :=
  r.documents.find? fun d => d.path = path.withoutFragment

end DocumentRoot

/-! ## Going through the documents -/

section

variable {σ : Type} (step : Document → StateM σ Document)

mutual

/-- Replaces the documents at and below a node by what the step makes of
them, in tree order. -/
def TreeNode.mapM : TreeNode → StateM σ TreeNode
  | .document document => do return .document (← step document)
  | .tree path config titleDocument children => do
    let titleDocument ← titleDocument.mapM step
    let children ← TreeNodes.mapM children
    return .tree path config titleDocument children

def TreeNodes.mapM : List TreeNode → StateM σ (List TreeNode)
  | [] => return []
  | node :: nodes => do
    let node ← node.mapM
    let nodes ← TreeNodes.mapM nodes
    return node :: nodes

end

def DocumentTree.mapM (t : DocumentTree) : StateM σ DocumentTree := do
  let titleDocument ← t.titleDocument.mapM step
  let children ← TreeNodes.mapM step t.children
  return { t with titleDocument := titleDocument, children := children }

/-- Replaces every document, the cover first. -/
def DocumentRoot.mapM (r : DocumentRoot) : StateM σ DocumentRoot := do
  let cover ← r.cover.mapM step
  let tree ← r.tree.mapM step
  return { r with cover := cover, tree := tree }

end

/-! ## Taking documents out -/

/-- Lays a document aside, after those laid aside before, and leaves a
placeholder. -/
def layAside (document : Document) : StateM (List Document) Document := do
  modify (· ++ [document])
  return document.placeholder

/-- The root with placeholders for its documents, and the documents in tree
order. -/
def DocumentRoot.detach (r : DocumentRoot) : DocumentRoot × List Document :=
  (r.mapM layAside).run []

mutual

def TreeNode.skeleton : TreeNode → TreeNode
  | .document document => .document document.placeholder
  | .tree path config titleDocument children =>
    .tree path config (titleDocument.map Document.placeholder)
      (TreeNodes.skeleton children)

def TreeNodes.skeleton : List TreeNode → List TreeNode
  | [] => []
  | node :: nodes => node.skeleton :: TreeNodes.skeleton nodes

end

def DocumentTree.skeleton (t : DocumentTree) : DocumentTree :=
  { t with
    titleDocument := t.titleDocument.map Document.placeholder
    children := TreeNodes.skeleton t.children }

/-- The root with placeholders for its documents. -/
def DocumentRoot.skeleton (r : DocumentRoot) : DocumentRoot :=
  { r with
    cover := r.cover.map Document.placeholder
    tree := r.tree.skeleton }

/-! ## Putting documents back -/

/-- The next document of the supply, or the one already there. -/
def nextDocument (held : Document) : StateM (List Document) Document := do
  match ← get with
  | [] => return held
  | document :: supply => do
    set supply
    return document

/-- Puts documents into the places of the root in tree order. Surplus
documents are ignored; places left over keep what they hold. -/
def DocumentRoot.attach (r : DocumentRoot) (supply : List Document) :
    DocumentRoot :=
  ((r.mapM nextDocument).run supply).1

end Crosslink
