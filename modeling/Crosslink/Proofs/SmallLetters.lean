import Crosslink.Unicode.Case

/-!
# Small letters

A character that lower-casing leaves as it is, on its own, is left as it is in
any text (`lowercase_eq_self`): only a capital sigma is looked at together with
what stands around it. Lower-casing gives such characters only
(`isSmall_of_mem_lowercase`). For the table of mappings this is checked run by
run (`CaseRun.spares`): the small letters of a run lie before or behind all
capitals of another one, or between them.
-/

namespace Crosslink.Unicode

/-! ## Runs of capitals -/

namespace CaseRun

/-- The small letters of the run are no capitals of the other one. -/
def spares (run other : CaseRun) : Bool :=
  let first := run.first + run.up - run.down
  let last := run.last + run.up - run.down
  !(other.first.ble last && first.ble other.last)
    || ((run.step.beq 2 || run.first.beq run.last) && other.step.beq 2
      && run.down.ble (run.first + run.up)
      && ((first + other.first) % 2).beq 1)

theorem covers_eq_false {run other : CaseRun} (h : run.spares other = true) {n : Nat}
    (hn : run.covers n = true) : other.covers (n + run.up - run.down) = false := by
  simp only [covers, Bool.and_eq_true, decide_eq_true_eq, beq_iff_eq] at hn
  obtain ⟨⟨hfirst, hlast⟩, hstep⟩ := hn
  simp only [spares, Bool.or_eq_true, Bool.not_eq_true', ← Bool.not_eq_true,
    Bool.and_eq_true, Nat.ble_eq, Nat.beq_eq] at h
  simp only [covers, Bool.and_eq_false_iff, decide_eq_false_iff_not, beq_eq_false_iff_ne]
  rcases h with hapart | ⟨⟨⟨hrun, hother⟩, hdown⟩, hodd⟩
  · omega
  · -- the small letters lie an odd distance behind the first capital
    rw [hother]
    rcases hrun with htwo | hsingle
    · rw [htwo] at hstep
      omega
    · omega

end CaseRun

/-- The capitals with a small letter of their own: the dotted one, whose small
letter is no single character, and those of the table. -/
def capitalRuns : List CaseRun := ⟨304, 304, 1, 0, 0⟩ :: caseRuns

theorem spares_capitalRuns :
    ∀ run ∈ caseRuns, ∀ other ∈ capitalRuns, run.spares other = true := by
  have h : (caseRuns.all fun run => capitalRuns.all run.spares) = true := by
    decide +kernel
  simpa only [List.all_eq_true] using h

/-! ## Small letters -/

/-- Lower-casing leaves the character as it is. -/
def IsSmall (c : Char) : Prop := lowercase [c] = [c]

instance (c : Char) : Decidable (IsSmall c) := inferInstanceAs (Decidable (_ = _))

theorem isSmall_iff {c : Char} : IsSmall c ↔ c ≠ 'Σ' ∧ c ≠ 'İ' ∧ lowerChar c = c := by
  rw [IsSmall, lowercase, lowerFrom, lowerFrom]
  by_cases hsigma : c = 'Σ'
  · subst hsigma
    simp
  · by_cases hdotted : c = 'İ'
    · subst hdotted
      simp
    · simp [hsigma, hdotted]

/-- A character that is no capital is small. -/
theorem isSmall_of_covers {c : Char}
    (h : ∀ run ∈ capitalRuns, run.covers c.toNat = false) : IsSmall c := by
  refine isSmall_iff.mpr ⟨?_, ?_, ?_⟩
  · rintro rfl
    have hsigma : ∃ run ∈ capitalRuns, run.covers 'Σ'.toNat = true := by decide +kernel
    obtain ⟨run, hrun, hcovers⟩ := hsigma
    exact Bool.noConfusion (hcovers.symm.trans (h run hrun))
  · rintro rfl
    have hdotted : CaseRun.covers ⟨304, 304, 1, 0, 0⟩ 'İ'.toNat = true := by decide
    exact Bool.noConfusion (hdotted.symm.trans (h _ List.mem_cons_self))
  · have hnone : caseRuns.find? (·.covers c.toNat) = none := by
      rw [List.find?_eq_none]
      exact fun run hrun => by simp [h run (List.mem_cons_of_mem _ hrun)]
    rw [lowerChar, hnone]

theorem isSmall_lowerChar {c : Char} (hc : c ≠ 'İ') : IsSmall (lowerChar c) := by
  refine isSmall_of_covers fun other hother => ?_
  unfold lowerChar
  cases hfind : caseRuns.find? (·.covers c.toNat) with
  | none =>
      rcases List.mem_cons.mp hother with rfl | hother
      · have hne : c.toNat ≠ 'İ'.toNat := fun heq => hc (Char.toNat_inj.mp heq)
        simp only [CaseRun.covers, Bool.and_eq_false_iff, decide_eq_false_iff_not]
        have hcode : 'İ'.toNat = 304 := rfl
        omega
      · simpa using List.find?_eq_none.mp hfind other hother
  | some run =>
      have hcovers := List.find?_some hfind
      have hspares := spares_capitalRuns run (List.mem_of_find?_eq_some hfind) other hother
      have hzero : ∀ run ∈ capitalRuns, run.covers 0 = false := by decide +kernel
      dsimp only
      by_cases hvalid : (c.toNat + run.up - run.down).isValidChar
      · have hcode : (Char.ofNat (c.toNat + run.up - run.down)).toNat
            = c.toNat + run.up - run.down :=
          congrArg Char.toNat (dif_pos hvalid)
        rw [hcode]
        exact CaseRun.covers_eq_false hspares hcovers
      -- a number without a character gives the character zero
      · have hcode : (Char.ofNat (c.toNat + run.up - run.down)).toNat = 0 :=
          congrArg Char.toNat (dif_neg hvalid)
        rw [hcode]
        exact hzero other hother

theorem isSmall_of_mem_lowerFrom {c : Char} {before cs : List Char}
    (h : c ∈ lowerFrom before cs) : IsSmall c := by
  induction cs generalizing before with
  | nil => cases h
  | cons first cs ih =>
      rw [lowerFrom] at h
      rcases List.mem_append.mp h with h | h
      · split at h
        · have hsigma : IsSmall 'ς' ∧ IsSmall 'σ' := by decide +kernel
          split at h <;> simp_all
        · split at h
          · have hdot : IsSmall 'i' ∧ IsSmall '\u0307' := by decide +kernel
            simp only [List.mem_cons, List.not_mem_nil, or_false] at h
            rcases h with rfl | rfl
            · exact hdot.1
            · exact hdot.2
          · rename_i hdotted
            rw [List.mem_singleton.mp h]
            exact isSmall_lowerChar hdotted
      · exact ih h

theorem isSmall_of_mem_lowercase {c : Char} {cs : List Char} (h : c ∈ lowercase cs) :
    IsSmall c := isSmall_of_mem_lowerFrom h

theorem lowerFrom_eq_self {cs : List Char} (h : ∀ c ∈ cs, IsSmall c) (before : List Char) :
    lowerFrom before cs = cs := by
  induction cs generalizing before with
  | nil => rfl
  | cons first cs ih =>
      obtain ⟨hfirst, hcs⟩ := List.forall_mem_cons.mp h
      obtain ⟨hsigma, hdotted, hsame⟩ := isSmall_iff.mp hfirst
      rw [lowerFrom, ih hcs, if_neg hsigma, if_neg hdotted, hsame]
      rfl

theorem lowercase_eq_self {cs : List Char} (h : ∀ c ∈ cs, IsSmall c) :
    lowercase cs = cs := lowerFrom_eq_self h []

end Crosslink.Unicode
