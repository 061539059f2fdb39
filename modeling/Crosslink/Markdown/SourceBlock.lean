import Crosslink.Markdown.Definition
import Crosslink.Markdown.Line

/-!
# Blocks as they stand in the source

What the block structure of a source says before its texts are read. A
block inside a container keeps the markers that the container puts in
front of its later lines, because the text of a block is one stretch of
the source. For the same reason the markers in front of the line after a
block belong to its text.
-/

namespace Crosslink.Markdown

inductive SourceBlock where
  | heading (level : Nat) (text : List Char)
  /-- A heading with a line of `symbol` under it. -/
  | underlined (symbol : Char) (text : List Char)
  | quote (content : List SourceBlock)
  /-- Code between fences; `info` is what follows the first one. -/
  | fencedCode (info code : List Char)
  | indentedCode (text : List Char)
  | definition (written : WrittenDefinition) (text : List Char)
  | paragraph (text : List Char)
  | rule
  /-- A block that is kept as it is. -/
  | verbatim (kind : String) (text : List Char)

end Crosslink.Markdown
