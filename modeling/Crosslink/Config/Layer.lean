import Crosslink.Config.Basic
import Crosslink.Path.Url

/-!
# Configuration layers

A layer is what one configuration file or front matter says. `apply`
merges it over the configuration it inherits: what is set overrides, link
targets merge by name, and mappings come before the inherited ones. Paths
of a layer are resolved against the tree that declares it.
-/

namespace Crosslink

structure WrittenMapping where
  externalUrl : String
  internalPath : String
deriving Repr, DecidableEq

/-- One layer; what is not set is inherited. -/
structure ConfigLayer where
  firstHeaderAsTitle : Option Bool := none
  targetFormats : Option (List String) := none
  targets : Dictionary String := .empty
  mappings : List WrittenMapping := []
deriving Repr, DecidableEq

/-- Why a path of a layer cannot be used. -/
inductive LayerError where
  | climbsAboveRoot (raw : String)
  | badPath (error : PathError)
deriving Repr, DecidableEq

/-- The reason given to the user. -/
def LayerError.reason : LayerError → String
  | .climbsAboveRoot raw => "`" ++ raw ++ "` ascends above the virtual root"
  | .badPath error => error.message

namespace ConfigLayer

/-- Resolves a path written in a layer of the tree at `base`. -/
def resolvePath (base : AbsolutePath) (raw : String) :
    Except LayerError AbsolutePath :=
  match WrittenPath.parse raw with
  | .ok (.absolute path) => .ok path
  | .ok (.relative path) =>
    match base.resolve path with
    | .inside path => .ok path
    | .aboveRoot _ => .error (.climbsAboveRoot raw)
  | .error error => .error (.badPath error)

def readTarget (base : AbsolutePath) (raw : String) :
    Except LayerError GlobalTarget :=
  if isExternalUrl raw then .ok (.external raw)
  else (resolvePath base raw).map .internal

def readMapping (base : AbsolutePath) (m : WrittenMapping) :
    Except LayerError LinkMapping :=
  (resolvePath base m.internalPath).map fun path => ⟨m.externalUrl, path⟩

/-- Sets the targets of a layer one after the other. -/
def mergeTargets (base : AbsolutePath) (inherited : Dictionary GlobalTarget) :
    List (String × String) → Except LayerError (Dictionary GlobalTarget)
  | [] => .ok inherited
  | (name, raw) :: targets =>
    match readTarget base raw with
    | .error error => .error error
    | .ok target => mergeTargets base (inherited.insert name target) targets

def readMappings (base : AbsolutePath) :
    List WrittenMapping → Except LayerError (List LinkMapping)
  | [] => .ok []
  | m :: ms =>
    match readMapping base m with
    | .error error => .error error
    | .ok mapping => (readMappings base ms).map (mapping :: ·)

/-- Merges the layer of the tree at `base` over what it inherits. -/
def apply (layer : ConfigLayer) (inherited : Config) (base : AbsolutePath) :
    Except LayerError Config :=
  match mergeTargets base inherited.globalTargets layer.targets.entries with
  | .error error => .error error
  | .ok globalTargets =>
    match readMappings base layer.mappings with
    | .error error => .error error
    | .ok mappings =>
      .ok
        { firstHeaderAsTitle :=
            layer.firstHeaderAsTitle.getD inherited.firstHeaderAsTitle
          globalTargets := globalTargets
          linkMappings := mappings ++ inherited.linkMappings
          targetFormats :=
            match layer.targetFormats with
            | some names => .ofNames names
            | none => inherited.targetFormats }

end ConfigLayer

end Crosslink
