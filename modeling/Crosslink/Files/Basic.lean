import Crosslink.Config.Basic
import Crosslink.Report.Fatal
import Crosslink.Text.Basic

/-!
# File trees

What stands on a disk, as a value: files with text, files whose bytes are
no text, and directories. The entries of a directory are kept in the order
of their names.

A place is the text by which a user names a file: names joined by slashes,
read from the root of the tree.
-/

namespace Crosslink

/-- What stands at a place. -/
inductive FileTree where
  | text (content : String)
  /-- A file whose bytes are no text. -/
  | bytes
  | directory (entries : List (String × FileTree))
deriving BEq

instance : Inhabited FileTree := ⟨.directory []⟩

/-- The place of an entry in the directory at `place`. -/
def joinPlace (place name : String) : String :=
  if place = "" ∨ place.toList.getLast? = some '/' then place ++ name
  else place ++ "/" ++ name

namespace FileTree

/-- The entries of a directory; a file has none. -/
def entries : FileTree → List (String × FileTree)
  | directory entries => entries
  | _ => []

/-- The tree with `node` below the given names; directories on the way are
made. -/
def insert : FileTree → List String → FileTree → FileTree
  | _, [], node => node
  | tree, name :: names, node =>
    let inside := (tree.entries.lookup name).getD (directory [])
    directory
      (Dictionary.insertEntry name (insert inside names node) tree.entries)

/-! ## Places -/

/-- Follows the steps of a place from a node, whose enclosing directories
are `above`, the nearest first. -/
def follow (above : List FileTree) : List (List Char) → FileTree →
    Option FileTree
  | [], node => some node
  | step :: steps, directory entries =>
    if step = [] ∨ step = ['.'] then follow above steps (directory entries)
    else if step = ['.', '.'] then
      match above with
      | [] => follow [] steps (directory entries)
      | outer :: above => follow above steps outer
    else
      match entries.lookup (String.ofList step) with
      | some node => follow (directory entries :: above) steps node
      | none => none
  | _ :: _, _ => none

/-- What stands at a place, if anything does. -/
def at? (tree : FileTree) (place : String) : Option FileTree :=
  if place = "" then none
  else tree.follow [] (place.toList.splitOn '/')

/-- The directory of a place, as text, and the name in it. -/
def splitPlace (place : String) : String × String :=
  let steps := place.toList.splitOn '/'
  let name := steps.getLast?.getD []
  (String.ofList (place.toList.take (place.length - name.length)),
   String.ofList name)

def dropEndSlashes (place : String) : String :=
  String.ofList (Text.dropEndWhile (· = '/') place.toList)

/-- Whether a text can be written at a place: no directory stands there,
and the directory to put it in is there. A slash at the end asks for a
directory. -/
def checkWritable (tree : FileTree) (place : String) :
    Except FatalError Unit :=
  match tree.at? place with
  | some (directory _) => .error .isDirectory
  | some _ => .ok ()
  | none =>
    if place = "" then .error .notFound
    else
      let (enclosing, _) := splitPlace (dropEndSlashes place)
      let steps := (dropEndSlashes enclosing).toList.splitOn '/'
      match tree.follow [] steps with
      | some (directory _) =>
        if dropEndSlashes place = place then .ok () else .error .isDirectory
      | some _ => .error .notDirectory
      | none => .error .notFound

end FileTree

end Crosslink
