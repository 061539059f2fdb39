import Crosslink.Proofs.Schemes

/-!
# Reports about surplus references

A reference after the last definition of its scheme is reported under the kind of
the scheme. Nothing else is: every other failure of a reference, of a declaration
and of a search for a link id is of another kind (`Problem.Ordinary`).
-/

namespace Crosslink

/-! ## Ordinary problems -/

/-- The failure is not that of a surplus reference. -/
def Failure.isOrdinary : Failure → Bool
  | .anonymousExhausted => false
  | .autonumbersExhausted => false
  | .autosymbolsExhausted => false
  | _ => true

/-- The problem is not that of a surplus reference. -/
def Problem.Ordinary (problem : Problem) : Prop :=
  ∀ scheme : Scheme, problem.kind ≠ scheme.kind

theorem Failure.ordinary {failure : Failure} (h : failure.isOrdinary = true) :
    failure.problem.Ordinary := by
  intro scheme hkind
  cases failure <;> cases scheme <;> first | (cases h; done) | cases hkind

theorem Failure.isOrdinary_of_isAliasLoop {failure : Failure}
    (h : failure.isAliasLoop = true) : failure.isOrdinary = true := by
  cases failure <;> first | rfl | cases h

theorem Problem.ordinary_nil : ∀ problem ∈ ([] : List Problem), problem.Ordinary :=
  nofun

theorem Failure.ordinary_singleton {failure : Failure} (h : failure.isOrdinary = true) :
    ∀ problem ∈ [failure.problem], problem.Ordinary :=
  List.forall_mem_singleton.mpr (ordinary h)

namespace Scope

variable {s : Scope} {problems : List Problem}

theorem obstacle_isOrdinary {written : WrittenPath} {path : AbsolutePath}
    {summary : DocumentSummary} {failure : Failure}
    (h : s.obstacle written path summary = some failure) :
    failure.isOrdinary = true := by
  unfold obstacle at h
  split at h
  · split at h <;> cases h
    rfl
  · cases h
    rfl

theorem checkPath_isOrdinary {tree : TreeIndex} {written : WrittenPath}
    {path : AbsolutePath} {failure : Failure}
    (h : s.checkPath tree written path = .failed failure) :
    failure.isOrdinary = true := by
  unfold checkPath at h
  split at h
  · cases h
  · split at h
    · cases h
      rfl
    · split at h
      · rename_i hobstacle
        cases h
        exact obstacle_isOrdinary hobstacle
      · cases h

theorem resolvePath_isOrdinary {path : WrittenPath} {failure : Failure}
    (h : s.resolvePath path = .failed failure) : failure.isOrdinary = true := by
  unfold resolvePath at h
  split at h
  · cases h
  · split at h
    · cases h
    · exact checkPath_isOrdinary h

theorem SettlesPath.ordinary {shown : Appearance} {path : WrittenPath}
    {title : Option String} {source : String} {out : Span}
    (h : s.SettlesPath shown path title source out problems) :
    ∀ problem ∈ problems, problem.Ordinary := by
  cases h with
  | resolved => exact Problem.ordinary_nil
  | deferred => exact Problem.ordinary_nil
  | failed hpath => exact Failure.ordinary_singleton (resolvePath_isOrdinary hpath)

theorem SettlesId.ordinary {shown : Appearance} {id source : String}
    {outcome : IdOutcome} {out : Span}
    (h : s.SettlesId shown id source outcome out problems)
    (hfailed : ∀ failure, outcome = .failed failure → failure.isOrdinary = true) :
    ∀ problem ∈ problems, problem.Ordinary := by
  cases h with
  | external => exact Problem.ordinary_nil
  | target => exact Problem.ordinary_nil
  | deferred => exact Problem.ordinary_nil
  | path h => exact h.ordinary
  | missing => cases shown <;> exact Failure.ordinary_singleton rfl
  | failed => exact Failure.ordinary_singleton (hfailed _ rfl)

theorem Answers.isOrdinary {id : String} {failure : Failure}
    (h : s.Answers id (.failed failure)) : failure.isOrdinary = true := by
  rcases h.finds with ⟨last, hfinds⟩ | ⟨other, heq, hloop⟩
  · cases hfinds <;> rfl
  · cases heq
    exact Failure.isOrdinary_of_isAliasLoop hloop

theorem citation_isOrdinary {label : String} {failure : Failure}
    (h : s.citation label = .error failure) : failure.isOrdinary = true := by
  unfold citation at h
  split at h
  · cases h
    rfl
  · split at h <;> cases h <;> rfl

theorem Means.isOrdinary {label : FootnoteLabel} {failure : Failure}
    (hlabel : label.scheme? = none) (h : s.Means label (.error failure)) :
    failure.isOrdinary = true := by
  generalize hfound : Except.error failure = found at h
  cases h with
  | numeric =>
      unfold numericFootnote at hfound
      dsimp only at hfound
      split at hfound <;> cases hfound <;> rfl
  | labelled =>
      unfold labelledFootnote at hfound
      split at hfound
      · cases hfound
        rfl
      · split at hfound
        · split at hfound <;> cases hfound
          rfl
        · cases hfound
          rfl
        · cases hfound
          rfl
  | autonumber => cases hfound
  | autosymbol => cases hfound
  | autonumbersExhausted => cases hlabel
  | autosymbolsExhausted => cases hlabel

theorem ChecksAnchor.ordinary {id : Option String} {block out : Block}
    (h : s.ChecksAnchor id block out problems) :
    ∀ problem ∈ problems, problem.Ordinary := by
  cases h with
  | kept => exact Problem.ordinary_nil
  | repeated => exact Failure.ordinary_singleton rfl

theorem FinishesCitation.ordinary {label : String} {id : Option String}
    {content : List Block} {out : Block}
    (h : s.FinishesCitation label id content out problems) :
    ∀ problem ∈ problems, problem.Ordinary := by
  cases h with
  | nameless => exact Failure.ordinary_singleton rfl
  | kept => exact Problem.ordinary_nil
  | repeated => exact Failure.ordinary_singleton rfl

theorem FinishesFootnote.ordinary {place : Nat} {label : FootnoteLabel}
    {content : List Block} {out : Block}
    (h : s.FinishesFootnote place label content out problems) :
    ∀ problem ∈ problems, problem.Ordinary := by
  cases h with
  | repeated => exact Failure.ordinary_singleton rfl
  | numbered => exact Problem.ordinary_nil
  | nameless => exact Failure.ordinary_singleton rfl

theorem DropsAlias.ordinary {indirection : LinkAlias} {out : Option Block}
    (h : s.DropsAlias indirection out problems) :
    ∀ problem ∈ problems, problem.Ordinary := by
  cases h with
  | repeated => exact Failure.ordinary_singleton rfl
  | looping _ _ hloop =>
      exact Failure.ordinary_singleton (Failure.isOrdinary_of_isAliasLoop hloop)
  | dropped => exact Problem.ordinary_nil

theorem DropsDefinition.ordinary {definition : LinkDefinition} {out : Option Block}
    (h : s.DropsDefinition definition out problems) :
    ∀ problem ∈ problems, problem.Ordinary := by
  cases h with
  | external => exact Problem.ordinary_nil
  | repeated => exact Failure.ordinary_singleton rfl
  | internal => exact Problem.ordinary_nil

end Scope

end Crosslink
