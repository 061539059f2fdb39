import Mathlib.Data.List.Dedup
import Mathlib.Order.Bounds.Basic
import Crosslink.Proofs.Slugs

/-!
# The search for a free id ends

A header without an id looks at one candidate after the other until one is
free. Left to itself, without a bound, this search (`Search`) ends, since the
candidates differ from each other and only so many ids are in use: it looks at
no more than one candidate besides the used ones, and it ends at the id that
the header gets (`search_freshId`), which is the base or the base with the
least number that makes it free (`freshId_cases`). The id is in use from then
on, so the ids that one registry gives are different
(`Leveling.derive_fresh`).
-/

namespace Crosslink

/-! ## The unbounded search -/

/-- From the `k`-th candidate on, `steps` candidates are looked at, until `id`
is free. -/
inductive Search (used : List String) (base : String) : (k steps : Nat) → String → Prop
  | free {k : Nat} (hfree : candidateId base k ∉ used) :
      Search used base k 1 (candidateId base k)
  | next {k steps : Nat} {id : String} (hused : candidateId base k ∈ used)
      (rest : Search used base (k + 1) steps id) : Search used base k (steps + 1) id

namespace Search

variable {used : List String} {base : String}

/-- The search gets past candidates in use to the first free one. -/
theorem to_free {n : Nat} (hfree : candidateId base n ∉ used)
    (hused : ∀ i < n, candidateId base i ∈ used) (k steps : Nat) (hn : k + steps = n) :
    Search used base k (steps + 1) (candidateId base n) := by
  induction steps generalizing k with
  | zero =>
      obtain rfl : k = n := hn
      exact .free hfree
  | succ steps ih => exact .next (hused k (by omega)) (ih (k + 1) (by omega))

/-- A search can end in one way only. -/
theorem unique {k steps steps' : Nat} {id id' : String}
    (h : Search used base k steps id) (h' : Search used base k steps' id') :
    steps' = steps ∧ id' = id := by
  induction h generalizing steps' with
  | free hfree =>
      cases h' with
      | free => exact ⟨rfl, rfl⟩
      | next hused => exact absurd hused hfree
  | next hused rest ih =>
      cases h' with
      | free hfree => exact absurd hused hfree
      | next _ rest' => exact (ih rest').imp_left (congrArg (· + 1))

end Search

/-- The search ends at the fresh id. -/
theorem search_freshId (used : List String) (base : String) :
    ∃ steps ≤ used.dedup.length + 1, Search used base 0 steps (freshId used base) := by
  obtain ⟨n, heq, hfree, hpassed⟩ := freshId_eq used base
  have hfew : n ≤ used.dedup.length :=
    le_length_of_candidates fun i hi => List.mem_dedup.mpr (hpassed i hi)
  rw [heq]
  exact ⟨n + 1, Nat.add_le_add_right hfew 1,
    .to_free hfree hpassed 0 n (Nat.zero_add n)⟩

theorem freshId_cases (used : List String) (base : String) :
    base ∉ used ∧ freshId used base = base
      ∨ base ∈ used ∧ ∃ k, freshId used base = base ++ "-" ++ toString k
        ∧ IsLeast {k : Nat | 1 ≤ k ∧ base ++ "-" ++ toString k ∉ used} k := by
  obtain ⟨n, heq, hfree, hpassed⟩ := freshId_eq used base
  cases n with
  | zero => exact .inl ⟨hfree, heq⟩
  | succ k =>
      refine .inr ⟨hpassed 0 k.succ_pos, k + 1, heq, ⟨k.succ_pos, hfree⟩, ?_⟩
      rintro i ⟨hi, hunused⟩
      obtain ⟨i, rfl⟩ := Nat.exists_eq_add_of_le' hi
      by_contra hlt
      exact hunused (hpassed (i + 1) (by omega))

/-! ## Headers one after another -/

namespace Leveling

/-- The ids derived for headers, each given with its own id, if it has one, and
its text. -/
def derive (s : Leveling) : List (Option String × List Span) → List String
  | [] => []
  | (some id, content) :: headers => (s.assign (some id) content).2.derive headers
  | (none, content) :: headers =>
    (s.assign none content).1 :: (s.assign none content).2.derive headers

/-- They differ from each other and from the ids in use before. -/
theorem derive_fresh (s : Leveling) (headers : List (Option String × List Span)) :
    (s.derive headers).Nodup ∧ ∀ id ∈ s.derive headers, id ∉ s.used := by
  induction headers generalizing s with
  | nil => exact ⟨List.nodup_nil, List.forall_mem_nil _⟩
  | cons header headers ih =>
      obtain ⟨explicit, content⟩ := header
      cases explicit with
      | some id => exact ih s
      | none =>
          obtain ⟨hnodup, hnew⟩ := ih (s.assign none content).2
          have hfresh : (s.assign none content).1 ∉ s.used := freshId_notMem _ _
          refine ⟨List.nodup_cons.mpr ⟨fun hid => hnew _ hid List.mem_cons_self, hnodup⟩,
            List.forall_mem_cons.mpr ⟨hfresh, fun id hid hused => ?_⟩⟩
          exact hnew id hid (List.mem_cons_of_mem _ hused)

/-- For a header without an id the search for a free one ends after one step
more than there are ids in use, at most, and in one way only: with the slug of
its text if this is free, else with the least number behind it. The id was not
in use before and is so afterwards; the ids derived for any headers after each
other are different. -/
theorem assign_searches (s : Leveling) (content : List Span) :
    (∃ steps ≤ s.used.dedup.length + 1, ∀ (n : Nat) (id : String),
        Search s.used (slugBase content) 0 n id
          ↔ n = steps ∧ id = (s.assign none content).1)
      ∧ (slugBase content ∉ s.used ∧ (s.assign none content).1 = slugBase content
        ∨ slugBase content ∈ s.used
          ∧ ∃ k, (s.assign none content).1 = slugBase content ++ "-" ++ toString k
            ∧ IsLeast {k : Nat | 1 ≤ k
                ∧ slugBase content ++ "-" ++ toString k ∉ s.used} k)
      ∧ (s.assign none content).1 ∉ s.used
      ∧ (s.assign none content).2 = { s with used := (s.assign none content).1 :: s.used }
      ∧ ∀ headers : List (Option String × List Span),
        (s.derive headers).Nodup ∧ ∀ id ∈ s.derive headers, id ∉ s.used := by
  obtain ⟨steps, hfew, hsearch⟩ := search_freshId s.used (slugBase content)
  refine ⟨⟨steps, hfew, fun n id => ⟨hsearch.unique, ?_⟩⟩, freshId_cases _ _,
    freshId_notMem _ _, rfl, s.derive_fresh⟩
  rintro ⟨rfl, rfl⟩
  exact hsearch

end Leveling

end Crosslink
