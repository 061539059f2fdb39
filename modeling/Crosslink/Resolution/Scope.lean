import Crosslink.Index.Tree
import Crosslink.Index.Document

/-!
# Scope of a pass

What one pass over one document may look at: the document's path and
configuration, the index of its declarations, and, in the second phase,
the index of the whole tree.
-/

namespace Crosslink

/-- Everything a pass reads and never changes. -/
structure Scope where
  document : AbsolutePath
  config : Config
  index : DocumentIndex
  tree : Option TreeIndex

end Crosslink
