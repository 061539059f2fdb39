import Crosslink.Json.Markup
import Crosslink.Resolution.Phases
import Crosslink.Tree

/-!
# Trees as JSON

How documents, trees and the result of a run are written. The effective
configuration is not part of the output.
-/

namespace Crosslink

open Json (optional)

def Document.jsonFields (d : Document) : List (String × Json) :=
  [("content", .array (Blocks.toJson d.content)), ("path", d.path.toJson)]

def Document.toJson (d : Document) : Json := .object d.jsonFields

def treeFields (path : AbsolutePath) (titleDocument : Option Document)
    (children : List Json) : List (String × Json) :=
  [("content", .array children), ("path", path.toJson),
   ("title_document", optional Document.toJson titleDocument)]

mutual

def TreeNode.toJson : TreeNode → Json
  | .document document => tagged "document" document.jsonFields
  | .tree path _ titleDocument children =>
    tagged "tree" (treeFields path titleDocument (TreeNodes.toJson children))

def TreeNodes.toJson : List TreeNode → List Json
  | [] => []
  | node :: nodes => node.toJson :: TreeNodes.toJson nodes

end

def DocumentTree.toJson (t : DocumentTree) : Json :=
  .object
    (treeFields t.path t.titleDocument (TreeNodes.toJson t.children))

def DocumentRoot.toJson (r : DocumentRoot) : Json :=
  .object
    [("cover", optional Document.toJson r.cover),
     ("static_documents", .array (r.staticDocuments.map AbsolutePath.toJson)),
     ("tree", r.tree.toJson)]

/-- The result of a run. -/
def Resolution.toJson (r : Resolution) : Json :=
  .object
    [("diagnostics", .array (r.diagnostics.map Diagnostic.toJson)),
     ("root", r.root.toJson)]

end Crosslink
