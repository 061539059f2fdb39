import Crosslink.Path.Basic

/-!
# Paths that lead above the root

The normal form of a path first climbs and then descends. Following the
written segments one by one comes to the same: a path leads above the root
from some depth exactly if its normal form climbs more levels than there are
(`climbs_iff`). So does reading a path that starts with a slash, from the root
(`WrittenPath.parse_of_slash`).
-/

namespace Crosslink

/-! ## Name by name -/

/-- Whoever follows the segments from a place `depth` names below the root
comes above the root. -/
def climbs : (depth : Nat) → List (List Char) → Bool
  | _, [] => false
  | depth, segment :: segments =>
    if segment = [] ∨ segment = ['.'] then climbs depth segments
    else if segment = ['.', '.'] then
      if depth = 0 then true else climbs (depth - 1) segments
    else climbs (depth + 1) segments

theorem Descent.ascents_le_step (d : Descent) (segment : List Char) :
    d.ascents ≤ (d.step segment).ascents := by
  unfold step
  split
  · exact Nat.le_refl _
  · split
    · split
      · exact Nat.le_succ _
      · exact Nat.le_refl _
    · exact Nat.le_refl _

theorem Descent.ascents_le_foldl (segments : List (List Char)) (d : Descent) :
    d.ascents ≤ (segments.foldl step d).ascents := by
  induction segments generalizing d with
  | nil => exact Nat.le_refl _
  | cons segment segments ih =>
    exact Nat.le_trans (d.ascents_le_step segment) (ih (d.step segment))

/-- A path climbs as far in its normal form as it does name by name. The
induction is on the segments, `d` is the normal form of those followed so
far. -/
theorem climbs_iff_foldl (segments : List (List Char)) {depth : Nat} :
    ∀ {d : Descent}, d.ascents ≤ depth →
      (climbs (depth - d.ascents + d.names.length) segments = true
        ↔ depth < (segments.foldl Descent.step d).ascents) := by
  induction segments with
  | nil =>
    intro d hle
    simpa [climbs] using hle
  | cons segment segments ih =>
    rintro ⟨ascents, names⟩ hle
    simp only at hle
    rw [List.foldl_cons, climbs, Descent.step]
    by_cases hstay : segment = [] ∨ segment = ['.']
    · rw [if_pos hstay, if_pos hstay]
      exact ih (d := ⟨ascents, names⟩) hle
    rw [if_neg hstay, if_neg hstay]
    by_cases hup : segment = ['.', '.']
    · rw [if_pos hup, if_pos hup]
      cases names with
      | cons name names => simpa using ih (d := ⟨ascents, names⟩) hle
      | nil =>
        by_cases htop : depth = ascents
        · -- at the root already, so the next name leads above it
          have habove := Descent.ascents_le_foldl segments ⟨ascents + 1, []⟩
          have hlt : depth < (segments.foldl Descent.step ⟨ascents + 1, []⟩).ascents := by
            simp only at habove
            omega
          simpa [htop] using hlt
        · have hroom : ascents + 1 ≤ depth := by omega
          have hnext := ih (d := ⟨ascents + 1, []⟩) hroom
          have hsub : depth - ascents ≠ 0 := by omega
          simpa [hsub, Nat.sub_sub] using hnext
    · rw [if_neg hup, if_neg hup]
      exact ih (d := ⟨ascents, String.ofList segment :: names⟩) hle

/-- What a path climbs in its normal form tells where it comes above the
root. -/
theorem climbs_iff (depth : Nat) (text : List Char) :
    climbs depth ((splitFragment text).1.splitOn '/') = true
      ↔ depth < (RelativePath.parse (String.ofList text)).ascents := by
  have hstart := climbs_iff_foldl ((splitFragment text).1.splitOn '/')
    (d := ⟨0, []⟩) (Nat.zero_le depth)
  simpa [RelativePath.parse] using hstart

/-! ## Reading -/

/-- The place that `r` leads to from `base`; from the root on it climbs no
further. -/
def AbsolutePath.follow (base : AbsolutePath) (r : RelativePath) : AbsolutePath :=
  ⟨base.segments.take (base.depth - r.ascents) ++ r.segments, r.fragment⟩

theorem AbsolutePath.resolve_eq (base : AbsolutePath) (r : RelativePath) :
    base.resolve r
      = if base.depth < r.ascents then .aboveRoot r else .inside (base.follow r) :=
  rfl

/-- A text that starts with a slash is read from the root. -/
theorem AbsolutePath.parse_of_slash {raw : String} {text : List Char}
    (h : raw.toList = '/' :: text) :
    parse raw
      = if 0 < (RelativePath.parse (String.ofList text)).ascents
        then .error (.aboveRoot raw)
        else .ok (root.follow (.parse (String.ofList text))) := by
  have hdepth : root.depth = 0 := rfl
  rw [parse]
  simp only [h, resolve_eq, hdepth]
  by_cases habove : 0 < (RelativePath.parse (String.ofList text)).ascents
  · rw [if_pos habove, if_pos habove]
  · rw [if_neg habove, if_neg habove]

theorem WrittenPath.parse_of_slash {raw : String} {text : List Char}
    (h : raw.toList = '/' :: text) :
    parse raw
      = if 0 < (RelativePath.parse (String.ofList text)).ascents
        then .error (.aboveRoot raw)
        else .ok (.absolute (AbsolutePath.root.follow (.parse (String.ofList text)))) := by
  rw [parse]
  simp only [h]
  rw [AbsolutePath.parse_of_slash h]
  split <;> rfl

theorem WrittenPath.parse_of_not_slash {raw : String}
    (h : ∀ text, raw.toList ≠ '/' :: text) :
    parse raw = .ok (.relative (.parse raw)) := by
  rw [parse]
  split
  · next text htext => exact absurd htext (h text)
  · rfl

end Crosslink
