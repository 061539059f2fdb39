import Crosslink.Index.Tree

/-!
# Landmarks

The usable anchors of a document are bare ids. A landmark also says what kind
of place has the id: an anchor (a header, a title, a section or an explicit
anchor), a citation or a footnote. `Blocks.landmarks` lists them in the order
of the usable anchors, which are their ids (`Blocks.ids_landmarks`).
-/

namespace Crosslink

/-- A place that a fragment can name. -/
inductive Landmark where
  | anchor (id : String)
  | citation (id : String)
  | footnote (id : String)
deriving Repr, DecidableEq

namespace Landmark

def id : Landmark → String
  | anchor id => id
  | citation id => id
  | footnote id => id

/-- The id is not made by numbering or from a label. -/
def isAnchor : Landmark → Bool
  | anchor _ => true
  | _ => false

end Landmark

mutual

/-- The landmarks of a resolved block. -/
def Block.landmarks : Block → List Landmark
  | .citation _ id content =>
    id.toList.map .citation ++ Blocks.landmarks content
  | .footnote id _ content => .footnote id :: Blocks.landmarks content
  | .header header => header.id.toList.map .anchor
  | .anchor id => [.anchor id]
  | .invalid fallback _ => fallback.nestedLandmarks
  | .quoted content => Blocks.landmarks content
  | .sectionOf header content =>
    header.id.toList.map .anchor ++ Blocks.landmarks content
  | .title title => title.id.toList.map .anchor
  | _ => []

/-- The landmarks inside an invalidated block, which is none itself. -/
def Block.nestedLandmarks : Block → List Landmark
  | .citation _ _ content => Blocks.landmarks content
  | .footnote _ _ content => Blocks.landmarks content
  | .footnoteDefinition _ content => Blocks.landmarks content
  | .quoted content => Blocks.landmarks content
  | .sectionOf _ content => Blocks.landmarks content
  | _ => []

/-- The landmarks of a sequence of blocks, in document order. -/
def Blocks.landmarks : List Block → List Landmark
  | [] => []
  | block :: blocks => block.landmarks ++ Blocks.landmarks blocks

end

theorem Blocks.landmarks_append (first second : List Block) :
    Blocks.landmarks (first ++ second)
      = Blocks.landmarks first ++ Blocks.landmarks second := by
  induction first with
  | nil => rfl
  | cons block first ih => simp [Blocks.landmarks, ih]

@[simp] theorem Blocks.landmarks_singleton (block : Block) :
    Blocks.landmarks [block] = block.landmarks :=
  List.append_nil _

mutual

theorem Block.ids_landmarks : ∀ block : Block,
    block.landmarks.map Landmark.id = block.usableAnchors
  | .citation _ id content => by
      rw [Block.landmarks, Block.usableAnchors, List.map_append,
        Blocks.ids_landmarks content]
      cases id <;> rfl
  | .footnote id _ content => by
      rw [Block.landmarks, Block.usableAnchors, List.map_cons,
        Blocks.ids_landmarks content]
      rfl
  | .header header => by
      rw [Block.landmarks, Block.usableAnchors]
      cases header.id <;> rfl
  | .title title => by
      rw [Block.landmarks, Block.usableAnchors]
      cases title.id <;> rfl
  | .sectionOf header content => by
      rw [Block.landmarks, Block.usableAnchors, List.map_append,
        Blocks.ids_landmarks content]
      cases header.id <;> rfl
  | .anchor _ => rfl
  | .quoted content => by
      rw [Block.landmarks, Block.usableAnchors, Blocks.ids_landmarks content]
  | .invalid fallback _ => by
      rw [Block.landmarks, Block.usableAnchors, Block.ids_nestedLandmarks fallback]
  | .paragraph _ | .codeBlock _ _ | .rule | .verbatim _ _ | .decoratedHeader _
  | .linkDefinition _ | .linkAlias _ | .footnoteDefinition _ _ | .reference _ _ => by
      simp [Block.landmarks, Block.usableAnchors]

theorem Block.ids_nestedLandmarks : ∀ block : Block,
    block.nestedLandmarks.map Landmark.id = block.nestedAnchors
  | .citation _ _ content | .footnote _ _ content | .footnoteDefinition _ content
  | .quoted content | .sectionOf _ content => by
      rw [Block.nestedLandmarks, Block.nestedAnchors, Blocks.ids_landmarks content]
  | .header _ | .title _ | .anchor _ | .invalid _ _ | .paragraph _ | .codeBlock _ _
  | .rule | .verbatim _ _ | .decoratedHeader _ | .linkDefinition _ | .linkAlias _
  | .reference _ _ => by simp [Block.nestedLandmarks, Block.nestedAnchors]

/-- What can be linked to are the ids of the landmarks. -/
theorem Blocks.ids_landmarks : ∀ blocks : List Block,
    (Blocks.landmarks blocks).map Landmark.id = Blocks.usableAnchors blocks
  | [] => rfl
  | block :: blocks => by
      rw [Blocks.landmarks, Blocks.usableAnchors, List.map_append,
        Block.ids_landmarks block, Blocks.ids_landmarks blocks]

end

end Crosslink
