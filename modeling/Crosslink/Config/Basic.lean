import Crosslink.Config.Formats
import Crosslink.Path.Basic

/-!
# Effective configuration

What is configured for a document or a tree once all layers above it are
merged: whether its first header becomes its title, the global link
targets it may use, the subtrees published under an external address, and
the output formats it is enabled for.
-/

namespace Crosslink

/-- A finite map from names, kept in the order of the names. -/
structure Dictionary (α : Type) where
  entries : List (String × α)
deriving Repr, DecidableEq

namespace Dictionary

variable {α : Type}

/-- The map without names. -/
def empty : Dictionary α := ⟨[]⟩

def get? (d : Dictionary α) (name : String) : Option α :=
  d.entries.lookup name

/-- Sets a name in a sorted list of entries. -/
def insertEntry (name : String) (value : α) :
    List (String × α) → List (String × α)
  | [] => [(name, value)]
  | (other, old) :: entries =>
    if name < other then (name, value) :: (other, old) :: entries
    else if name = other then (name, value) :: entries
    else (other, old) :: insertEntry name value entries

def insert (d : Dictionary α) (name : String) (value : α) : Dictionary α :=
  ⟨insertEntry name value d.entries⟩

/-- The map with the given entries; later ones win. -/
def ofList (entries : List (String × α)) : Dictionary α :=
  entries.foldl (fun d (name, value) => d.insert name value) empty

end Dictionary

/-- A named link target usable from every document in scope. -/
inductive GlobalTarget where
  | external (url : String)
  | internal (path : AbsolutePath)
deriving Repr, DecidableEq

/-- A subtree published under an external address. -/
structure LinkMapping where
  externalUrl : String
  internalPath : AbsolutePath
deriving Repr, DecidableEq

/-- The effective configuration of a document or tree. -/
structure Config where
  firstHeaderAsTitle : Bool := false
  globalTargets : Dictionary GlobalTarget := .empty
  linkMappings : List LinkMapping := []
  targetFormats : TargetFormats := .all
deriving Repr, DecidableEq

namespace Config

/-- The configuration of a tree without any layer. -/
def initial : Config := {}

/-- The deeper of two mappings; of equally deep ones the first wins. -/
def deeper (m n : LinkMapping) : LinkMapping :=
  if m.internalPath.depth < n.internalPath.depth then n else m

def deepest? : List LinkMapping → Option LinkMapping
  | [] => none
  | m :: mappings =>
    match deepest? mappings with
    | none => some m
    | some n => some (deeper n m)

/-- The mapping to use for `path`: the deepest subtree containing it, and
the last one listed among equally deep ones. -/
def mappingFor (config : Config) (path : AbsolutePath) : Option LinkMapping :=
  deepest? (config.linkMappings.filter fun m => path.isWithin m.internalPath)

end Config

end Crosslink
