import Crosslink.Tree

/-!
# Index of the tree

Built once between the two phases of resolution: for every document the
anchors that its locally resolved content offers and its output formats,
and the paths of the static documents. `findAnchor` looks for an anchor of
another document, starting in the tree of the asking document and widening
the search one enclosing tree at a time.
-/

namespace Crosslink

mutual

/-- The usable anchors of a resolved block: ids of headers, titles,
sections and explicit anchors, of citations and of footnotes. -/
def Block.usableAnchors : Block → List String
  | .citation _ id content => id.toList ++ Blocks.usableAnchors content
  | .footnote id _ content => id :: Blocks.usableAnchors content
  | .header header => header.id.toList
  | .anchor id => [id]
  | .invalid fallback _ => fallback.nestedAnchors
  | .quoted content => Blocks.usableAnchors content
  | .sectionOf header content =>
    header.id.toList ++ Blocks.usableAnchors content
  | .title title => title.id.toList
  | _ => []

/-- The usable anchors inside an invalidated block. -/
def Block.nestedAnchors : Block → List String
  | .citation _ _ content => Blocks.usableAnchors content
  | .footnote _ _ content => Blocks.usableAnchors content
  | .footnoteDefinition _ content => Blocks.usableAnchors content
  | .quoted content => Blocks.usableAnchors content
  | .sectionOf _ content => Blocks.usableAnchors content
  | _ => []

/-- The usable anchors of a sequence of blocks, in document order. -/
def Blocks.usableAnchors : List Block → List String
  | [] => []
  | block :: blocks => block.usableAnchors ++ Blocks.usableAnchors blocks

end

/-- What the tree knows about one document. -/
structure DocumentSummary where
  anchors : List String
  formats : TargetFormats
deriving Repr, DecidableEq

/-- Result of a search for an anchor. -/
inductive AnchorLookup where
  | found (path : AbsolutePath)
  | duplicate (scope : AbsolutePath)
  | missing
deriving Repr, DecidableEq

/-- The tree as the second phase sees it; every path occurs once. -/
structure TreeIndex where
  documents : List (AbsolutePath × DocumentSummary)
  staticDocuments : List AbsolutePath
deriving Repr, DecidableEq

namespace TreeIndex

def summarize (d : Document) : DocumentSummary :=
  ⟨Blocks.usableAnchors d.content, d.config.targetFormats⟩

/-- Records a document, in the place of an earlier one at the same path. -/
def record (summaries : List (AbsolutePath × DocumentSummary))
    (d : Document) : List (AbsolutePath × DocumentSummary) :=
  summaries.filter (·.1 != d.path) ++ [(d.path, summarize d)]

/-- The index of a locally resolved tree. -/
def build (root : DocumentRoot) : TreeIndex :=
  ⟨root.documents.foldl record [], root.staticDocuments⟩

/-- The summary of the document at `path`; fragments do not count. -/
def document? (t : TreeIndex) (path : AbsolutePath) :
    Option DocumentSummary :=
  t.documents.lookup path.withoutFragment

/-- Whether `path` is a static document; fragments do not count. -/
def isStatic (t : TreeIndex) (path : AbsolutePath) : Bool :=
  t.staticDocuments.contains path.withoutFragment

/-- The documents within `scope`, other than `origin`, that offer `id`. -/
def offering (t : TreeIndex) (id : String) (origin scope : AbsolutePath) :
    List AbsolutePath :=
  (t.documents.filter fun (path, summary) =>
    path != origin && path.isWithin scope && summary.anchors.contains id).map
      (·.1)

/-- The outermost `levels` names of the tree that `origin` stands in. -/
def scopeAt (origin : AbsolutePath) (levels : Nat) : AbsolutePath :=
  ⟨origin.parent.segments.take levels, none⟩

/-- What one scope says about `id`, if it says anything. -/
def lookIn (t : TreeIndex) (id : String) (origin scope : AbsolutePath) :
    Option AnchorLookup :=
  match t.offering id origin scope with
  | [] => none
  | [path] => some (.found (path.withFragment (some id)))
  | _ :: _ :: _ => some (.duplicate scope)

/-- Searches the scope with the given number of names, then the wider
ones. -/
def findFrom (t : TreeIndex) (id : String) (origin : AbsolutePath) :
    (levels : Nat) → AnchorLookup
  | 0 => (t.lookIn id origin (scopeAt origin 0)).getD .missing
  | levels + 1 =>
    match t.lookIn id origin (scopeAt origin (levels + 1)) with
    | some answer => answer
    | none => findFrom t id origin levels

/-- Searches the other documents for the anchor `id`, nearest tree first. -/
def findAnchor (t : TreeIndex) (id : String) (document : AbsolutePath) :
    AnchorLookup :=
  let origin := document.withoutFragment
  t.findFrom id origin origin.parent.depth

end TreeIndex

end Crosslink
