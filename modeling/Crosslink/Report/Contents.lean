import Crosslink.Tree

/-!
# Contents of a tree

Lists for every document its path, its title and its sections, each
section one line, indented by its depth.
-/

namespace Crosslink

def Header.contentsLine (h : Header) (depth : Nat) : String :=
  let indent := String.ofList (List.replicate (2 * depth) ' ')
  let anchor :=
    match h.id with
    | some id => " (#" ++ id ++ ")"
    | none => ""
  indent ++ "- " ++ Spans.plainText h.content ++ anchor ++ "\n"

mutual

def Block.contents (depth : Nat) : Block → String
  | .sectionOf header content =>
    header.contentsLine depth ++ Blocks.contents (depth + 1) content
  | _ => ""

/-- The lines of the sections among some blocks. -/
def Blocks.contents (depth : Nat) : List Block → String
  | [] => ""
  | block :: blocks => block.contents depth ++ Blocks.contents depth blocks

end

def Document.contents (d : Document) : String :=
  let title :=
    match d.title? with
    | some title => "\n" ++ Spans.plainText title.content ++ "\n"
    | none => ""
  "# " ++ d.path.toText ++ "\n" ++ title ++ "\n" ++ Blocks.contents 0 d.content
    ++ "\n"

/-- The contents of every document, in tree order. -/
def DocumentRoot.contents (r : DocumentRoot) : String :=
  String.join (r.documents.map Document.contents)

end Crosslink
