import Crosslink.Proofs.AliasChain

/-!
# Searches completed with the tree

A search that is put off because the tree is not known is taken up where it
stopped. `complete` says what an outcome comes to then. A search that knows
the tree from the start finds the completed outcome and remembers the
completed outcomes, whatever was remembered before
(`lookUp_withTree`).
-/

namespace Crosslink

namespace Scope

variable (s : Scope) (tree : TreeIndex)

/-- The scope with the tree known. -/
def withTree : Scope := { s with tree := some tree }

theorem index_withTree : (s.withTree tree).index = s.index := rfl

/-- What an outcome comes to once the tree is known. -/
def complete : IdOutcome → IdOutcome
  | .found destination => .found destination
  | .deferred last => s.searchTree tree last
  | .missing last => .missing last
  | .failed failure => .failed failure

def completeCache (cache : IdCache) : IdCache :=
  cache.map fun entry => (entry.1, s.complete tree entry.2)

variable {s tree}

/-! ## One id -/

theorem aliasTarget?_withTree (id : String) :
    (s.withTree tree).aliasTarget? id = s.aliasTarget? id := rfl

theorem searchAnchors_withTree (hnone : s.tree = none) (id : String) :
    (s.withTree tree).searchAnchors id = s.complete tree (s.searchAnchors id) := by
  unfold searchAnchors
  rw [index_withTree, hnone]
  cases s.index.anchors.entry? id with
  | none => rfl
  | some entry => cases entry <;> rfl

theorem outcomeOf_withTree (hnone : s.tree = none) (id : String) :
    (s.withTree tree).outcomeOf id = s.complete tree (s.outcomeOf id) := by
  unfold outcomeOf
  rw [index_withTree]
  cases s.index.linkDefinitions.entry? id with
  | none => exact searchAnchors_withTree hnone id
  | some entry =>
      cases entry with
      | duplicate => rfl
      | unique entry =>
          cases entry with
          | indirection target => exact searchAnchors_withTree hnone id
          | target defined => rfl

theorem isAliasLoop_searchTree (s : Scope) (tree : TreeIndex) (id : String) :
    (s.searchTree tree id).isAliasLoop = false := by
  unfold searchTree
  split
  · rfl
  · split <;> rfl

theorem isAliasLoop_complete (outcome : IdOutcome) :
    (s.complete tree outcome).isAliasLoop = outcome.isAliasLoop := by
  cases outcome with
  | deferred last => exact isAliasLoop_searchTree s tree last
  | _ => rfl

/-! ## What is remembered -/

theorem lookup_completeCache (cache : IdCache) (id : String) :
    (s.completeCache tree cache).lookup id
      = (cache.lookup id).map (s.complete tree) := by
  induction cache with
  | nil => rfl
  | cons entry cache ih =>
      rw [completeCache, List.map_cons, List.lookup_cons, List.lookup_cons]
      split
      · rfl
      · exact ih

theorem settled_completeCache (cache : IdCache) (active : List String)
    (id : String) :
    settled (s.completeCache tree cache) active id
      = (settled cache active id).map (s.complete tree) := by
  unfold settled
  rw [lookup_completeCache]
  cases cache.lookup id with
  | some outcome => rfl
  | none =>
      by_cases hactive : id ∈ active
      · simp [hactive, complete]
      · simp [hactive]

theorem remember_complete (cache : IdCache) (id : String) (outcome : IdOutcome) :
    remember (s.completeCache tree cache) id (s.complete tree outcome)
      = s.completeCache tree (remember cache id outcome) := by
  unfold remember
  rw [isAliasLoop_complete]
  split <;> rfl

/-! ## Whole searches -/

theorem follow_withTree (hnone : s.tree = none) (active : List String)
    (room : Nat) (id : String) (cache : IdCache) :
    (s.withTree tree).follow active room id (s.completeCache tree cache)
      = (s.complete tree (s.follow active room id cache).1,
          s.completeCache tree (s.follow active room id cache).2) := by
  induction room generalizing active id with
  | zero =>
      simp only [follow, settled_completeCache]
      cases settled cache active id <;> rfl
  | succ room ih =>
      simp only [follow, settled_completeCache]
      cases settled cache active id with
      | some outcome => rfl
      | none =>
          rw [aliasTarget?_withTree]
          cases s.aliasTarget? id with
          | none =>
              simp only [Option.map_none, outcomeOf_withTree hnone,
                remember_complete]
          | some target =>
              simp only [Option.map_none, ih, remember_complete]

/-- Looking an id up with the tree known, where so far it was not. -/
theorem lookUp_withTree (hnone : s.tree = none) (tree : TreeIndex) (id : String)
    (cache : IdCache) :
    (s.withTree tree).lookUp id (s.completeCache tree cache)
      = (s.complete tree (s.lookUp id cache).1,
          s.completeCache tree (s.lookUp id cache).2) :=
  follow_withTree hnone [] Failure.maxAliasDepth id cache

end Scope

end Crosslink
